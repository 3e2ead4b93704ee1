import Dodam.Cost.LateCoalesce
import Dodam.Foundation.Runs

/-! # Row selections for late materialisation

The predicate pass reports, batch after batch, which rows it keeps. Counters are `usize` and
wrap.
-/
namespace Dodam.Engine
open Foundation Cost

structure RowSelector where
  rowCount : ℕ
  skip : Bool
deriving DecidableEq

namespace RowSelector

def select (rowCount : ℕ) : RowSelector := ⟨rowCount,false⟩
def skipRows (rowCount : ℕ) : RowSelector := ⟨rowCount,true⟩

def run (s : RowSelector) : Bool × ℕ := (!s.skip,s.rowCount)

end RowSelector

structure LateSelectionBuilder where
  selectors : List RowSelector := []
  currentSelected : Option Bool := none
  runLen : ℕ := 0
  totalRows : ℕ := 0
  selectedRows : ℕ := 0
deriving DecidableEq

namespace LateSelectionBuilder

def pendingSelector (selected : Bool) (runLen : ℕ) : RowSelector :=
  if selected then .select runLen else .skipRows runLen

def appendLateSelectorRun (b : LateSelectionBuilder) (selected : Bool) (len : ℕ) : LateSelectionBuilder :=
  if len = 0 then b
  else match b.currentSelected with
    | some current =>
      if current = selected then { b with runLen := wrapUnsigned 64 (b.runLen + len) }
      else { b with
        selectors := b.selectors ++ [pendingSelector current b.runLen]
        currentSelected := some selected
        runLen := len }
    | none => { b with currentSelected := some selected, runLen := len }

def finishLateSelectorRun (b : LateSelectionBuilder) : List RowSelector :=
  if b.runLen = 0 then b.selectors
  else b.selectors ++ [pendingSelector (b.currentSelected.getD false) b.runLen]

/-- Both counters grow by the rows just pushed. -/
def addRows (b : LateSelectionBuilder) (rowCount selected : ℕ) : LateSelectionBuilder :=
  { b with
    totalRows := wrapUnsigned 64 (b.totalRows + rowCount)
    selectedRows := wrapUnsigned 64 (b.selectedRows + selected) }

def push (b : LateSelectionBuilder) (selected : Bool) : LateSelectionBuilder :=
  (b.addRows 1 (if selected then 1 else 0)).appendLateSelectorRun selected 1

def pushRepeated (b : LateSelectionBuilder) (rowCount : ℕ) (selected : Bool) : LateSelectionBuilder :=
  if rowCount = 0 then b
  else (b.appendLateSelectorRun selected rowCount).addRows rowCount (if selected then rowCount else 0)

/-- The loop over the offsets of one batch: the rows consumed of it, the rows selected, and the
markers handed to the payload. -/
structure OffsetLoop where
  builder : LateSelectionBuilder
  consumed : ℕ := 0
  selected : ℕ := 0
  markers : List (Option ℕ) := []

def selectOffset (rowCount : ℕ) (s : OffsetLoop) (offset : ℕ) : OffsetLoop :=
  if rowCount ≤ offset ∨ offset < s.consumed then s
  else
    let skipped := offset - s.consumed
    let b := if 0 < skipped then s.builder.appendLateSelectorRun false skipped else s.builder
    { s with
      builder := b.appendLateSelectorRun true 1
      consumed := offset + 1
      selected := wrapUnsigned 64 (s.selected + 1) }

/-- The rows before a selected offset: a short enough stretch of them is read as well. -/
def coalesceGap (maxGap : ℕ) (s : OffsetLoop) (skipped : ℕ) : OffsetLoop :=
  if 0 < skipped then
    if 0 < maxGap ∧ skipped ≤ maxGap ∧ 0 < s.selected then
      { s with
        builder := s.builder.appendLateSelectorRun true skipped
        selected := wrapUnsigned 64 (s.selected + skipped)
        markers := s.markers ++ List.replicate skipped none }
    else { s with builder := s.builder.appendLateSelectorRun false skipped }
  else s

def coalesceOffset (rowCount maxGap : ℕ) (s : OffsetLoop) (offset : ℕ) : OffsetLoop :=
  if rowCount ≤ offset ∨ offset < s.consumed then s
  else
    let s := coalesceGap maxGap s (offset - s.consumed)
    { builder := s.builder.appendLateSelectorRun true 1
      consumed := offset + 1
      selected := wrapUnsigned 64 (s.selected + 1)
      markers := s.markers ++ [some offset] }

/-- The rows after the last selected offset are skipped, and all rows are counted. -/
def OffsetLoop.close (s : OffsetLoop) (rowCount : ℕ) : LateSelectionBuilder :=
  let b := if s.consumed < rowCount then
      s.builder.appendLateSelectorRun false (rowCount - s.consumed) else s.builder
  b.addRows rowCount s.selected

def pushSelectedOffsets (b : LateSelectionBuilder) (rowCount : ℕ) (selectedOffsets : List ℕ) :
    LateSelectionBuilder :=
  (selectedOffsets.foldl (selectOffset rowCount) { builder := b }).close rowCount

def pushSelectedU32Offsets (b : LateSelectionBuilder) (rowCount : ℕ) (selectedOffsets : List ℕ) :
    LateSelectionBuilder :=
  (selectedOffsets.foldl (selectOffset rowCount) { builder := b }).close rowCount

/-- The builder and the markers passed to `push_payload_marker`, in order; `none` when the choice
of the gap uses up its fuel. -/
def pushSelectedU32OffsetsCoalesced (tuning : LateCoalesceTuning) (fuel : ℕ) (b : LateSelectionBuilder)
    (rowCount : ℕ) (selectedOffsets : List ℕ) (maxGap : ℕ) :
    Option (LateSelectionBuilder × List (Option ℕ)) :=
  (chooseLateCoalesceMaxGap tuning fuel selectedOffsets maxGap).map fun maxGap =>
    let s := selectedOffsets.foldl (coalesceOffset rowCount maxGap) { builder := b }
    (s.close rowCount,s.markers)

end LateSelectionBuilder

/-- What `finish_with_selectors` returns: the selection, when a row is selected, the selectors,
and the counts among the metrics. -/
structure LateSelection where
  selection : Option (List RowSelector)
  selectors : List RowSelector
  totalRows : ℕ
  selectedRows : ℕ
  selectorRuns : ℕ
deriving DecidableEq

def LateSelectionBuilder.finishWithSelectors (b : LateSelectionBuilder) : LateSelection :=
  let selectors := b.finishLateSelectorRun
  { selection := if 0 < b.selectedRows then some selectors else none
    selectors := selectors
    totalRows := b.totalRows
    selectedRows := b.selectedRows
    selectorRuns := selectors.length }

/-- The row group the splitter is at, and where it starts and stops. -/
structure RowGroupCursor where
  index : ℕ
  start : ℕ
  stop : ℕ

def RowGroupCursor.next (rowGroupRows : List ℕ) (c : RowGroupCursor) : RowGroupCursor :=
  { index := c.index + 1
    start := c.stop
    stop := saturatingAdd c.stop (rowGroupRows[c.index + 1]?.getD 0) }

def skipRowGroups (rowGroupRows : List ℕ) (selectorStart : ℕ) (c : RowGroupCursor) : RowGroupCursor :=
  if c.index < rowGroupRows.length ∧ c.stop ≤ selectorStart then
    skipRowGroups rowGroupRows selectorStart (c.next rowGroupRows)
  else c
termination_by rowGroupRows.length - c.index
decreasing_by simp only [RowGroupCursor.next]; omega

/-- The rows of a selector are handed to the row groups they lie in. -/
def splitSelector (rowGroupRows : List ℕ) (selectorEnd start : ℕ) (c : RowGroupCursor)
    (runs : List (List (ℕ × ℕ))) : RowGroupCursor × List (List (ℕ × ℕ)) :=
  if c.index < rowGroupRows.length ∧ start < selectorEnd then
    let stop := min selectorEnd c.stop
    let runs := if start < stop then
      runs.modify c.index (· ++ [(start - c.start,stop - start)]) else runs
    if c.stop ≤ stop then splitSelector rowGroupRows selectorEnd stop (c.next rowGroupRows) runs
    else splitSelector rowGroupRows selectorEnd stop c runs
  else (c,runs)
termination_by (rowGroupRows.length - c.index,selectorEnd - start)
decreasing_by
  · exact Prod.Lex.left _ _ (by simp only [RowGroupCursor.next]; omega)
  · exact Prod.Lex.right _ (by omega)

structure SelectorSplit where
  runs : List (List (ℕ × ℕ))
  selectorStart : ℕ
  cursor : RowGroupCursor

def splitLateSelector (rowGroupRows : List ℕ) (s : SelectorSplit) (selector : RowSelector) : SelectorSplit :=
  let selectorEnd := saturatingAdd s.selectorStart selector.rowCount
  if selector.skip then { s with selectorStart := selectorEnd }
  else
    let c := skipRowGroups rowGroupRows s.selectorStart s.cursor
    let (cursor,runs) := splitSelector rowGroupRows selectorEnd s.selectorStart c s.runs
    { runs := runs, selectorStart := selectorEnd, cursor := cursor }

def splitLateSelectorsByRowGroup (selectors : List RowSelector) (rowGroupRows : List ℕ) :
    List (List (ℕ × ℕ)) :=
  (selectors.foldl (splitLateSelector rowGroupRows)
    { runs := rowGroupRows.map fun _ => []
      selectorStart := 0
      cursor := ⟨0,0,rowGroupRows.head?.getD 0⟩ }).runs

end Dodam.Engine
