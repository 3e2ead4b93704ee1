import Dodam.Engine.LateSelection
import Dodam.Foundation.Fold

/-! # The selection builder encodes the rows pushed

A call stands for the rows it reports, one boolean a row.
-/
namespace Dodam.Engine
open Foundation Cost

/-- The calls of the builder's interface, each with its arguments. -/
inductive LateCall where
  | push (selected : Bool)
  | pushRepeated (rowCount : ℕ) (selected : Bool)
  | pushSelectedOffsets (rowCount : ℕ) (selectedOffsets : List ℕ)
  | pushSelectedU32Offsets (rowCount : ℕ) (selectedOffsets : List ℕ)
  | pushSelectedU32OffsetsCoalesced (rowCount : ℕ) (selectedOffsets : List ℕ) (maxGap : ℕ)

namespace LateCall

def rowCount : LateCall → ℕ
  | push _ => 1
  | pushRepeated rowCount _ => rowCount
  | pushSelectedOffsets rowCount _ => rowCount
  | pushSelectedU32Offsets rowCount _ => rowCount
  | pushSelectedU32OffsetsCoalesced rowCount _ _ => rowCount

def selectedOffsets : LateCall → List ℕ
  | push _ => []
  | pushRepeated _ _ => []
  | pushSelectedOffsets _ selectedOffsets => selectedOffsets
  | pushSelectedU32Offsets _ selectedOffsets => selectedOffsets
  | pushSelectedU32OffsetsCoalesced _ selectedOffsets _ => selectedOffsets

def maxGap : LateCall → ℕ
  | pushSelectedU32OffsetsCoalesced _ _ maxGap => maxGap
  | _ => 0

/-- The arguments are machine integers and the offsets increase below the row count. -/
structure Valid (call : LateCall) : Prop where
  rowCount_le : call.rowCount ≤ maxUnsigned 64
  maxGap_le : call.maxGap ≤ maxUnsigned 64
  sorted : call.selectedOffsets.Pairwise (· < ·)
  below : ∀ offset ∈ call.selectedOffsets, offset < call.rowCount

def apply (tuning : LateCoalesceTuning) (fuel : ℕ) (b : LateSelectionBuilder) :
    LateCall → Option (LateSelectionBuilder × List (Option ℕ))
  | push selected => some (b.push selected,[])
  | pushRepeated rowCount selected => some (b.pushRepeated rowCount selected,[])
  | pushSelectedOffsets rowCount offsets => some (b.pushSelectedOffsets rowCount offsets,[])
  | pushSelectedU32Offsets rowCount offsets => some (b.pushSelectedU32Offsets rowCount offsets,[])
  | pushSelectedU32OffsetsCoalesced rowCount offsets maxGap =>
    b.pushSelectedU32OffsetsCoalesced tuning fuel rowCount offsets maxGap

/-- One marker for each selected row in row order, with the offset where it was requested. -/
def payloadMarkers (offsets : List ℕ) (rows : List Bool) : List (Option ℕ) :=
  (rows.findIdxs id).map fun i => if i ∈ offsets then some i else none

/-- The rows a call reports and the markers it passes on. A coalesced call selects the requested
rows, and besides them only rows between two requested ones at most `maxGap` rows apart. -/
def Reports : LateCall → List Bool → List (Option ℕ) → Prop
  | push selected, rows, markers => rows = [selected] ∧ markers = []
  | pushRepeated rowCount selected, rows, markers =>
    rows = List.replicate rowCount selected ∧ markers = []
  | pushSelectedOffsets rowCount offsets, rows, markers =>
    rows = (List.range rowCount).map (fun i => decide (i ∈ offsets)) ∧ markers = []
  | pushSelectedU32Offsets rowCount offsets, rows, markers =>
    rows = (List.range rowCount).map (fun i => decide (i ∈ offsets)) ∧ markers = []
  | pushSelectedU32OffsetsCoalesced rowCount offsets maxGap, rows, markers =>
    rows.length = rowCount ∧ (∀ i ∈ offsets, rows[i]? = some true) ∧
      (∀ i, rows[i]? = some true → i ∈ offsets ∨
        ∃ a ∈ offsets, ∃ b ∈ offsets, a < i ∧ i < b ∧ b - a - 1 ≤ maxGap) ∧
      markers = payloadMarkers offsets rows

theorem Reports.length {call : LateCall} {rows : List Bool} {markers : List (Option ℕ)}
    (h : call.Reports rows markers) : rows.length = call.rowCount := by
  cases call with
  | push selected =>
    rw [h.1]
    rfl
  | pushRepeated rowCount selected =>
    rw [h.1]
    exact List.length_replicate
  | pushSelectedOffsets rowCount offsets =>
    rw [h.1]
    simp [LateCall.rowCount]
  | pushSelectedU32Offsets rowCount offsets =>
    rw [h.1]
    simp [LateCall.rowCount]
  | pushSelectedU32OffsetsCoalesced rowCount offsets maxGap => exact h.1

end LateCall

namespace LateSelectionBuilder

/-- The finished runs and the one in progress. -/
def runs (b : LateSelectionBuilder) : List (Bool × ℕ) :=
  b.selectors.map RowSelector.run ++ (b.currentSelected.map fun selected => (selected,b.runLen)).toList

structure Holds (b : LateSelectionBuilder) (rows : List Bool) : Prop where
  expand : expandRuns b.runs = rows
  canonical : CanonicalRuns b.runs
  notStarted : b.currentSelected = none → b.selectors = [] ∧ b.runLen = 0

structure Counts (b : LateSelectionBuilder) (rows : List Bool) : Prop where
  total : b.totalRows = rows.length
  selected : b.selectedRows = rows.count true

@[simp] theorem run_pendingSelector (selected : Bool) (n : ℕ) :
    (pendingSelector selected n).run = (selected,n) := by
  cases selected <;> rfl

theorem holds_empty : ({} : LateSelectionBuilder).Holds [] :=
  ⟨rfl,canonicalRuns_nil,fun _ => ⟨rfl,rfl⟩⟩

theorem runs_of_some {b : LateSelectionBuilder} {selected : Bool} (h : b.currentSelected = some selected) :
    b.runs = b.selectors.map RowSelector.run ++ [(selected,b.runLen)] := by
  rw [runs,h]
  rfl

section Append
variable {b : LateSelectionBuilder} {selected : Bool} {len : ℕ}

theorem appendLateSelectorRun_of_none (hlen : len ≠ 0) (h : b.currentSelected = none) :
    b.appendLateSelectorRun selected len = { b with currentSelected := some selected, runLen := len } := by
  rw [appendLateSelectorRun,if_neg hlen,h]

theorem appendLateSelectorRun_of_same (hlen : len ≠ 0) (h : b.currentSelected = some selected) :
    b.appendLateSelectorRun selected len = { b with runLen := wrapUnsigned 64 (b.runLen + len) } := by
  simp only [appendLateSelectorRun,if_neg hlen,h,if_true]

theorem appendLateSelectorRun_of_ne {current : Bool} (hlen : len ≠ 0)
    (h : b.currentSelected = some current) (hne : current ≠ selected) :
    b.appendLateSelectorRun selected len = { b with
      selectors := b.selectors ++ [pendingSelector current b.runLen]
      currentSelected := some selected
      runLen := len } := by
  simp only [appendLateSelectorRun,if_neg hlen,h,if_neg hne]

end Append

variable {rows : List Bool}

theorem Holds.append {b : LateSelectionBuilder} (h : b.Holds rows)
    (selected : Bool) {len : ℕ} (hfit : rows.length + len < 2 ^ 64) :
    (b.appendLateSelectorRun selected len).Holds (rows ++ List.replicate len selected) := by
  by_cases hlen : len = 0
  · subst hlen
    simpa [appendLateSelectorRun] using h
  obtain ⟨hexpand,hcanonical,hnone⟩ := h
  cases hc : b.currentSelected with
  | none =>
    obtain ⟨hselectors,-⟩ := hnone hc
    have hrows : rows = [] := by
      rw [← hexpand,runs,hc,hselectors]
      rfl
    rw [appendLateSelectorRun_of_none hlen hc]
    refine ⟨?_,?_,by simp⟩
    · rw [runs_of_some rfl,hselectors,hrows]
      simp
    · rw [runs_of_some rfl,hselectors]
      exact canonicalRuns_singleton (Nat.pos_of_ne_zero hlen)
  | some current =>
    rw [runs_of_some hc] at hexpand hcanonical
    have hsplit : rows = expandRuns (b.selectors.map RowSelector.run) ++ List.replicate b.runLen current := by
      rw [← hexpand]
      simp
    by_cases hsame : current = selected
    · subst hsame
      have hlength : b.runLen ≤ rows.length := by
        rw [hsplit,List.length_append,List.length_replicate]
        omega
      have hwrap : wrapUnsigned 64 (b.runLen + len) = b.runLen + len := Nat.mod_eq_of_lt (by omega)
      rw [appendLateSelectorRun_of_same hlen hc,hwrap]
      refine ⟨?_,?_,by simp [hc]⟩
      · rw [runs_of_some (by exact hc)]
        simp only [expandRuns_append,expandRuns_cons,expandRuns_nil,List.append_nil,hsplit,
          List.replicate_add,List.append_assoc]
      · rw [runs_of_some (by exact hc)]
        exact hcanonical.grow (Nat.le_add_right _ _)
    · rw [appendLateSelectorRun_of_ne hlen hc hsame]
      refine ⟨?_,?_,by simp⟩
      · rw [runs_of_some rfl]
        simp [hsplit]
      · rw [runs_of_some rfl]
        simpa using hcanonical.next hsame (Nat.pos_of_ne_zero hlen)

@[simp] theorem appendLateSelectorRun_totalRows (b : LateSelectionBuilder) (selected : Bool) (len : ℕ) :
    (b.appendLateSelectorRun selected len).totalRows = b.totalRows := by
  unfold appendLateSelectorRun
  split_ifs
  · rfl
  · cases b.currentSelected with
    | none => rfl
    | some current => dsimp only; split_ifs <;> rfl

@[simp] theorem appendLateSelectorRun_selectedRows (b : LateSelectionBuilder) (selected : Bool) (len : ℕ) :
    (b.appendLateSelectorRun selected len).selectedRows = b.selectedRows := by
  unfold appendLateSelectorRun
  split_ifs
  · rfl
  · cases b.currentSelected with
    | none => rfl
    | some current => dsimp only; split_ifs <;> rfl

theorem Holds.addRows {b : LateSelectionBuilder} (h : b.Holds rows) (n m : ℕ) :
    (b.addRows n m).Holds rows :=
  ⟨h.expand,h.canonical,h.notStarted⟩

theorem Counts.addRows {b b' : LateSelectionBuilder} {cells : List Bool} (h : b.Counts rows)
    (hfit : rows.length + cells.length < 2 ^ 64) (htotal : b'.totalRows = b.totalRows)
    (hselected : b'.selectedRows = b.selectedRows) {n m : ℕ} (hn : n = cells.length)
    (hm : m = cells.count true) : (b'.addRows n m).Counts (rows ++ cells) := by
  have hc := List.count_le_length (a := true) (l := rows)
  have hc' := List.count_le_length (a := true) (l := cells)
  constructor
  · rw [List.length_append]
    show wrapUnsigned 64 (b'.totalRows + n) = _
    rw [htotal,h.total,hn]
    exact Nat.mod_eq_of_lt hfit
  · rw [List.count_append]
    show wrapUnsigned 64 (b'.selectedRows + m) = _
    rw [hselected,h.selected,hm]
    exact Nat.mod_eq_of_lt (by omega)

theorem Holds.finish {b : LateSelectionBuilder} (h : b.Holds rows) :
    b.finishLateSelectorRun.map RowSelector.run = b.runs := by
  unfold finishLateSelectorRun
  cases hc : b.currentSelected with
  | none =>
    obtain ⟨hselectors,hrun⟩ := h.notStarted hc
    rw [if_pos hrun,runs,hc]
    exact (List.append_nil _).symm
  | some current =>
    have hpos : 0 < b.runLen := h.canonical.1 (current,b.runLen) (by rw [runs_of_some hc]; simp)
    rw [if_neg (by omega),runs_of_some hc]
    simp

end LateSelectionBuilder
end Dodam.Engine

/-! ## The loops over selected offsets

The three entry points that take offsets run one loop. Its invariant knows the
rows of the call consumed so far: which of them are selected, and that the
markers passed on name them in order.
-/
namespace Dodam.Engine.LateSelectionBuilder
open Foundation Cost LateCall

/-- The loop after the offsets `seen`: `cells` are the rows of the call consumed so far. -/
structure LoopInv (base : List Bool) (offsets : List ℕ) (maxGap : ℕ) (seen : List ℕ) (s : OffsetLoop)
    (cells : List Bool) : Prop where
  holds : s.builder.Holds (base ++ cells)
  consumed : cells.length = s.consumed
  below : ∀ o ∈ seen, o < s.consumed
  last : 0 < s.consumed → s.consumed - 1 ∈ seen
  requested : ∀ o ∈ seen, cells[o]? = some true
  between : ∀ i, cells[i]? = some true →
    i ∈ seen ∨ ∃ a ∈ seen, ∃ b ∈ seen, a < i ∧ i < b ∧ b - a - 1 ≤ maxGap
  selected : s.selected = cells.count true
  markers : s.markers = payloadMarkers offsets cells

theorem loopInv_start {b : LateSelectionBuilder} {base : List Bool} (h : b.Holds base)
    (offsets : List ℕ) (maxGap : ℕ) : LoopInv base offsets maxGap [] { builder := b } [] := by
  refine ⟨?_,rfl,by simp,by simp,by simp,by simp,rfl,rfl⟩
  simpa using h

theorem payloadMarkers_append_false (offsets : List ℕ) (cells : List Bool) (n : ℕ) :
    payloadMarkers offsets (cells ++ List.replicate n false) = payloadMarkers offsets cells := by
  have hnone : (List.replicate n false).findIdxs id (0 + cells.length) = [] := by
    rw [List.findIdxs_eq_nil_iff]
    intro x hx
    exact List.eq_of_mem_replicate hx
  rw [payloadMarkers,List.findIdxs_append,hnone,List.append_nil]
  rfl

theorem payloadMarkers_append_true {offsets : List ℕ} {cells : List Bool} {n : ℕ}
    (h : ∀ i, cells.length ≤ i → i < cells.length + n → i ∉ offsets) :
    payloadMarkers offsets (cells ++ List.replicate n true) =
      payloadMarkers offsets cells ++ List.replicate n none := by
  rw [payloadMarkers,List.findIdxs_append,List.map_append]
  congr 1
  refine List.eq_replicate_iff.mpr ⟨?_,?_⟩
  · rw [List.length_map,List.length_findIdxs,List.countP_replicate]
    rfl
  · intro m hm
    obtain ⟨i,hi,rfl⟩ := List.mem_map.mp hm
    obtain ⟨hle,hlt,-⟩ := List.mem_findIdxs_iff_getElem_sub_pos.mp hi
    rw [List.length_replicate] at hlt
    exact if_neg (h i (by omega) (by omega))

theorem payloadMarkers_append_requested {offsets : List ℕ} {cells : List Bool}
    (h : cells.length ∈ offsets) :
    payloadMarkers offsets (cells ++ [true]) = payloadMarkers offsets cells ++ [some cells.length] := by
  rw [payloadMarkers,List.findIdxs_append,List.map_append]
  congr 1
  simp [h]

section Step
variable {base cells : List Bool} {offsets seen rest : List ℕ} {maxGap : ℕ} {s : OffsetLoop} {o : ℕ}

theorem LoopInv.consumed_le (h : LoopInv base offsets maxGap seen s cells)
    (hoffsets : offsets = seen ++ o :: rest) (hsorted : offsets.Pairwise (· < ·)) : s.consumed ≤ o := by
  rcases Nat.eq_zero_or_pos s.consumed with h0 | hpos
  · omega
  · rw [hoffsets,List.pairwise_append] at hsorted
    have := hsorted.2.2 _ (h.last hpos) o (by simp)
    omega

theorem LoopInv.notMem (h : LoopInv base offsets maxGap seen s cells)
    (hoffsets : offsets = seen ++ o :: rest) (hsorted : offsets.Pairwise (· < ·)) {i : ℕ}
    (hi : s.consumed ≤ i) (hlt : i < o) : i ∉ offsets := by
  intro hmem
  rw [hoffsets,List.pairwise_append,List.pairwise_cons] at hsorted
  rw [hoffsets,List.mem_append,List.mem_cons] at hmem
  rcases hmem with hmem | rfl | hmem
  · exact absurd (h.below i hmem) (by omega)
  · omega
  · exact absurd (hsorted.2.1.1 i hmem) (by omega)

/-- The rows of the gap before `o`, read or skipped, with the counts and markers for them. -/
theorem LoopInv.gap (h : LoopInv base offsets maxGap seen s cells)
    (hoffsets : offsets = seen ++ o :: rest) (hsorted : offsets.Pairwise (· < ·))
    (hfit : base.length + o < 2 ^ 64) :
    ∃ fill, (coalesceGap maxGap s (o - s.consumed)).builder.Holds
        (base ++ (cells ++ List.replicate (o - s.consumed) fill)) ∧
      (coalesceGap maxGap s (o - s.consumed)).selected =
        (cells ++ List.replicate (o - s.consumed) fill).count true ∧
      (coalesceGap maxGap s (o - s.consumed)).markers =
        payloadMarkers offsets (cells ++ List.replicate (o - s.consumed) fill) ∧
      (fill = true → 0 < s.consumed ∧ o - s.consumed ≤ maxGap) := by
  have hle := h.consumed_le hoffsets hsorted
  have hlength : (base ++ cells).length + (o - s.consumed) < 2 ^ 64 := by
    rw [List.length_append,h.consumed]
    omega
  unfold coalesceGap
  split_ifs with hpos hfill
  · refine ⟨true,?_,?_,?_,?_⟩
    · rw [← List.append_assoc]
      exact h.holds.append true hlength
    · have hcount := List.count_le_length (a := true) (l := cells)
      rw [List.count_append,List.count_replicate_self,← h.selected]
      rw [List.length_append] at hlength
      exact Nat.mod_eq_of_lt (by rw [h.selected]; omega)
    · rw [payloadMarkers_append_true,← h.markers]
      intro i hi hlt
      rw [h.consumed] at hi hlt
      exact h.notMem hoffsets hsorted hi (by omega)
    · intro _
      refine ⟨?_,hfill.2.1⟩
      -- a row selected before the gap has been consumed
      have hcount := List.count_le_length (a := true) (l := cells)
      rw [← h.selected,h.consumed] at hcount
      omega
  · refine ⟨false,?_,?_,?_,by simp⟩
    · rw [← List.append_assoc]
      exact h.holds.append false hlength
    · rw [List.count_append,List.count_replicate]
      simpa using h.selected
    · rw [payloadMarkers_append_false]
      exact h.markers
  · have hzero : o - s.consumed = 0 := by omega
    refine ⟨false,?_,?_,?_,by simp⟩
    · rw [hzero]
      simpa using h.holds
    · rw [hzero]
      simpa using h.selected
    · rw [payloadMarkers_append_false]
      exact h.markers

theorem LoopInv.step {rowCount : ℕ} (h : LoopInv base offsets maxGap seen s cells)
    (hoffsets : offsets = seen ++ o :: rest) (hsorted : offsets.Pairwise (· < ·))
    (hbelow : o < rowCount) (hfit : base.length + rowCount < 2 ^ 64) :
    ∃ cells', LoopInv base offsets maxGap (seen ++ [o]) (coalesceOffset rowCount maxGap s o) cells' := by
  have hle := h.consumed_le hoffsets hsorted
  obtain ⟨fill,hholds,hselected,hmarkers,hfill⟩ := h.gap hoffsets hsorted (by omega)
  have hlength : (cells ++ List.replicate (o - s.consumed) fill).length = o := by
    rw [List.length_append,List.length_replicate,h.consumed]
    omega
  have hmem : (cells ++ List.replicate (o - s.consumed) fill).length ∈ offsets := by
    rw [hlength,hoffsets]
    simp
  have hguard : ¬(rowCount ≤ o ∨ o < s.consumed) := by omega
  refine ⟨cells ++ List.replicate (o - s.consumed) fill ++ [true],?_⟩
  rw [coalesceOffset,if_neg hguard]
  generalize coalesceGap maxGap s (o - s.consumed) = t at *
  constructor
  · show (t.builder.appendLateSelectorRun true 1).Holds _
    rw [← List.append_assoc]
    have hone : (base ++ (cells ++ List.replicate (o - s.consumed) fill)).length + 1 < 2 ^ 64 := by
      rw [List.length_append,hlength]
      omega
    exact hholds.append true hone
  · rw [List.length_append,hlength]
    rfl
  · intro p hp
    rcases List.mem_append.mp hp with hp | hp
    · exact Nat.lt_succ_of_lt ((h.below p hp).trans_le hle)
    · rw [List.mem_singleton.mp hp]
      exact Nat.lt_succ_self o
  · intro _
    simp
  · intro p hp
    rcases List.mem_append.mp hp with hp | hp
    · have hlt := h.below p hp
      rw [List.append_assoc,List.getElem?_append_left (by rw [h.consumed]; exact hlt)]
      exact h.requested p hp
    · rw [List.mem_singleton.mp hp,List.getElem?_append_right hlength.le,hlength]
      simp
  · intro i hi
    rcases lt_trichotomy i o with hlt | rfl | hgt
    · rw [List.getElem?_append_left (by rw [hlength]; exact hlt)] at hi
      rcases lt_or_ge i s.consumed with hseen | hgap
      · rw [List.getElem?_append_left (by rw [h.consumed]; exact hseen)] at hi
        rcases h.between i hi with hmem | ⟨a,ha,b,hb,hab⟩
        · exact .inl (List.mem_append_left _ hmem)
        · exact .inr ⟨a,List.mem_append_left _ ha,b,List.mem_append_left _ hb,hab⟩
      · rw [List.getElem?_append_right (by rw [h.consumed]; exact hgap)] at hi
        obtain ⟨hconsumed,hmax⟩ := hfill (List.eq_of_mem_replicate (List.mem_of_getElem? hi)).symm
        exact .inr ⟨s.consumed - 1,List.mem_append_left _ (h.last hconsumed),o,by simp,by omega,hlt,by omega⟩
    · exact .inl (by simp)
    · rw [List.getElem?_eq_none (by rw [List.length_append,hlength]; exact hgt)] at hi
      cases hi
  · have hcount := List.count_le_length (a := true) (l := cells ++ List.replicate (o - s.consumed) fill)
    show wrapUnsigned 64 (t.selected + 1) = _
    rw [List.count_append,hselected]
    exact Nat.mod_eq_of_lt (by omega)
  · show t.markers ++ [some o] = _
    rw [payloadMarkers_append_requested hmem,hmarkers,hlength]

end Step

variable {rowCount : ℕ}

theorem loopInv_foldl {b : LateSelectionBuilder} {base : List Bool} (h : b.Holds base)
    {offsets : List ℕ} (maxGap : ℕ) (hsorted : offsets.Pairwise (· < ·))
    (hbelow : ∀ o ∈ offsets, o < rowCount) (hfit : base.length + rowCount < 2 ^ 64) :
    ∃ cells, LoopInv base offsets maxGap offsets
      (offsets.foldl (coalesceOffset rowCount maxGap) { builder := b }) cells := by
  refine foldl_inv (fun seen s => ∃ cells, LoopInv base offsets maxGap seen s cells)
    ⟨[],loopInv_start h offsets maxGap⟩ ?_
  rintro seen o rest s hoffsets ⟨cells,hinv⟩
  exact hinv.step hoffsets hsorted (hbelow o (by rw [hoffsets]; simp)) hfit

theorem coalesceOffset_counters (rowCount maxGap : ℕ) (s : OffsetLoop) (o : ℕ) :
    (coalesceOffset rowCount maxGap s o).builder.totalRows = s.builder.totalRows ∧
      (coalesceOffset rowCount maxGap s o).builder.selectedRows = s.builder.selectedRows := by
  unfold coalesceOffset
  split_ifs
  · exact ⟨rfl,rfl⟩
  · unfold coalesceGap
    split_ifs <;> simp

theorem coalesceOffset_foldl_counters (rowCount maxGap : ℕ) (offsets : List ℕ) (s : OffsetLoop) :
    (offsets.foldl (coalesceOffset rowCount maxGap) s).builder.totalRows = s.builder.totalRows ∧
      (offsets.foldl (coalesceOffset rowCount maxGap) s).builder.selectedRows = s.builder.selectedRows := by
  induction offsets generalizing s with
  | nil => exact ⟨rfl,rfl⟩
  | cons o offsets ih =>
    obtain ⟨ht,hs⟩ := coalesceOffset_counters rowCount maxGap s o
    rw [List.foldl_cons,(ih _).1,(ih _).2]
    exact ⟨ht,hs⟩

theorem selectOffset_eq (rowCount : ℕ) (s : OffsetLoop) (o : ℕ) :
    selectOffset rowCount { s with markers := [] } o =
      { coalesceOffset rowCount 0 s o with markers := [] } := by
  unfold selectOffset coalesceOffset
  split_ifs
  · rfl
  · unfold coalesceGap
    split_ifs with hpos hgap
    · exact absurd hgap.1 (lt_irrefl 0)
    · simp only [if_pos hpos]
    · simp only [if_neg hpos]

theorem selectOffset_foldl (rowCount : ℕ) (offsets : List ℕ) (s : OffsetLoop) :
    offsets.foldl (selectOffset rowCount) { s with markers := [] } =
      { offsets.foldl (coalesceOffset rowCount 0) s with markers := [] } := by
  induction offsets generalizing s with
  | nil => rfl
  | cons o offsets ih => rw [List.foldl_cons,selectOffset_eq,ih,List.foldl_cons]

/-- The rows after the last offset are skipped and all rows of the call are counted. -/
theorem LoopInv.close {b : LateSelectionBuilder} {base cells : List Bool} {offsets : List ℕ}
    {maxGap : ℕ} {s : OffsetLoop} (h : LoopInv base offsets maxGap offsets s cells)
    (hcounts : b.Counts base) (htotal : s.builder.totalRows = b.totalRows)
    (hselected : s.builder.selectedRows = b.selectedRows) (hbelow : ∀ o ∈ offsets, o < rowCount)
    (hfit : base.length + rowCount < 2 ^ 64) :
    ∃ rows, rows.length = rowCount ∧ (∀ i ∈ offsets, rows[i]? = some true) ∧
      (∀ i, rows[i]? = some true → i ∈ offsets ∨
        ∃ a ∈ offsets, ∃ b ∈ offsets, a < i ∧ i < b ∧ b - a - 1 ≤ maxGap) ∧
      s.markers = payloadMarkers offsets rows ∧
      (s.close rowCount).Holds (base ++ rows) ∧ (s.close rowCount).Counts (base ++ rows) := by
  have hle : s.consumed ≤ rowCount := by
    rcases Nat.eq_zero_or_pos s.consumed with h0 | hpos
    · omega
    · have := hbelow _ (h.last hpos)
      omega
  have hlength : (cells ++ List.replicate (rowCount - s.consumed) false).length = rowCount := by
    rw [List.length_append,List.length_replicate,h.consumed]
    omega
  have hcount : s.selected = (cells ++ List.replicate (rowCount - s.consumed) false).count true := by
    rw [List.count_append,List.count_replicate]
    simpa using h.selected
  have hholds : (s.builder.appendLateSelectorRun false (rowCount - s.consumed)).Holds
      (base ++ (cells ++ List.replicate (rowCount - s.consumed) false)) := by
    rw [← List.append_assoc]
    refine h.holds.append false ?_
    rw [List.length_append,h.consumed]
    omega
  refine ⟨cells ++ List.replicate (rowCount - s.consumed) false,hlength,?_,?_,?_,?_,?_⟩
  · intro i hi
    rw [List.getElem?_append_left (by rw [h.consumed]; exact h.below i hi)]
    exact h.requested i hi
  · intro i hi
    rcases lt_or_ge i cells.length with hlt | hge
    · rw [List.getElem?_append_left hlt] at hi
      exact h.between i hi
    · rw [List.getElem?_append_right hge] at hi
      cases List.eq_of_mem_replicate (List.mem_of_getElem? hi)
  · rw [payloadMarkers_append_false]
    exact h.markers
  · unfold OffsetLoop.close
    split_ifs with hlt
    · exact hholds.addRows _ _
    · have hzero : rowCount - s.consumed = 0 := by omega
      rw [hzero,List.replicate_zero,List.append_nil]
      exact h.holds.addRows _ _
  · unfold OffsetLoop.close
    split_ifs <;> exact hcounts.addRows (by rw [hlength]; exact hfit) (by simpa using htotal) (by simpa using hselected)
      hlength.symm hcount

theorem coalesced_spec {b : LateSelectionBuilder} {base : List Bool} (hholds : b.Holds base)
    (hcounts : b.Counts base) {offsets : List ℕ} (maxGap : ℕ)
    (hsorted : offsets.Pairwise (· < ·)) (hbelow : ∀ o ∈ offsets, o < rowCount)
    (hfit : base.length + rowCount < 2 ^ 64) :
    ∃ rows, rows.length = rowCount ∧ (∀ i ∈ offsets, rows[i]? = some true) ∧
      (∀ i, rows[i]? = some true → i ∈ offsets ∨
        ∃ a ∈ offsets, ∃ b ∈ offsets, a < i ∧ i < b ∧ b - a - 1 ≤ maxGap) ∧
      (offsets.foldl (coalesceOffset rowCount maxGap) { builder := b }).markers =
        payloadMarkers offsets rows ∧
      ((offsets.foldl (coalesceOffset rowCount maxGap) { builder := b }).close rowCount).Holds
        (base ++ rows) ∧
      ((offsets.foldl (coalesceOffset rowCount maxGap) { builder := b }).close rowCount).Counts
        (base ++ rows) := by
  obtain ⟨cells,hinv⟩ := loopInv_foldl hholds maxGap hsorted hbelow hfit
  obtain ⟨ht,hs⟩ := coalesceOffset_foldl_counters rowCount maxGap offsets { builder := b }
  exact hinv.close hcounts ht hs hbelow hfit

/-- The plain loop selects the requested rows and no others. -/
theorem selected_spec {b : LateSelectionBuilder} {base : List Bool} (hholds : b.Holds base)
    (hcounts : b.Counts base) {offsets : List ℕ} (hsorted : offsets.Pairwise (· < ·))
    (hbelow : ∀ o ∈ offsets, o < rowCount) (hfit : base.length + rowCount < 2 ^ 64) :
    (b.pushSelectedOffsets rowCount offsets).Holds
        (base ++ (List.range rowCount).map fun i => decide (i ∈ offsets)) ∧
      (b.pushSelectedOffsets rowCount offsets).Counts
        (base ++ (List.range rowCount).map fun i => decide (i ∈ offsets)) := by
  obtain ⟨rows,hlength,hrequested,hbetween,-,hh,hc⟩ :=
    coalesced_spec hholds hcounts 0 hsorted hbelow hfit
  have hrows : rows = (List.range rowCount).map fun i => decide (i ∈ offsets) := by
    refine List.ext_getElem (by simp [hlength]) ?_
    intro i hi _
    rw [List.getElem_map,List.getElem_range,Bool.eq_iff_iff,decide_eq_true_iff]
    constructor
    · intro htrue
      rcases hbetween i (by rw [List.getElem?_eq_getElem hi,htrue]) with hmem | ⟨a,_,c,_,hac⟩
      · exact hmem
      · omega
    · intro hmem
      have hsome := hrequested i hmem
      rw [List.getElem?_eq_getElem hi] at hsome
      exact Option.some.inj hsome
  have hloop := selectOffset_foldl rowCount offsets { builder := b }
  have hpush : b.pushSelectedOffsets rowCount offsets =
      (offsets.foldl (coalesceOffset rowCount 0) { builder := b }).close rowCount := by
    unfold pushSelectedOffsets
    rw [hloop]
    rfl
  rw [hpush,← hrows]
  exact ⟨hh,hc⟩

end Dodam.Engine.LateSelectionBuilder
