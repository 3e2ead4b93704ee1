import Dodam.Engine.LateSelection
import Dodam.Foundation.Fold

/-! # The splitter gives each row group its selected rows

Three cursors move over the selectors and the row groups.
-/
namespace Dodam.Engine
open Foundation Cost

/-- Where row group `k` starts. -/
def groupStart (rowGroupRows : List ℕ) (k : ℕ) : ℕ := (rowGroupRows.take k).sum

section Groups
variable {rowGroupRows : List ℕ} {k : ℕ}

theorem groupStart_succ (rowGroupRows : List ℕ) (k : ℕ) :
    groupStart rowGroupRows (k + 1) = groupStart rowGroupRows k + rowGroupRows[k]?.getD 0 := by
  unfold groupStart
  rw [List.take_add_one,List.sum_append]
  cases rowGroupRows[k]? with
  | none => rfl
  | some n => simp

theorem groupStart_mono (rowGroupRows : List ℕ) : Monotone (groupStart rowGroupRows) :=
  monotone_nat_of_le_succ fun k => by
    rw [groupStart_succ]
    omega

theorem groupStart_of_length_le (h : rowGroupRows.length ≤ k) : groupStart rowGroupRows k = rowGroupRows.sum := by
  rw [groupStart,List.take_of_length_le h]

theorem groupStart_le (rowGroupRows : List ℕ) (k : ℕ) : groupStart rowGroupRows k ≤ rowGroupRows.sum := by
  rcases le_total rowGroupRows.length k with h | h
  · exact (groupStart_of_length_le h).le
  · rw [← groupStart_of_length_le le_rfl]
    exact groupStart_mono _ h

end Groups

structure CursorAt (rowGroupRows : List ℕ) (c : RowGroupCursor) : Prop where
  index_le : c.index ≤ rowGroupRows.length
  start : c.start = groupStart rowGroupRows c.index
  stop : c.stop = groupStart rowGroupRows (c.index + 1)

/-- The rows before `position` have been handed out. -/
def Handed (rowGroupRows : List ℕ) (rows : List Bool) (position : ℕ) (runs : List (List (ℕ × ℕ))) : Prop :=
  runs.length = rowGroupRows.length ∧ ∀ k intervals, runs[k]? = some intervals →
    Marks (fun i => groupStart rowGroupRows k + i < min position (groupStart rowGroupRows (k + 1)) ∧
      rows[groupStart rowGroupRows k + i]? = some true) intervals

section Split
variable {rowGroupRows : List ℕ} {rows : List Bool} {c : RowGroupCursor} {runs : List (List (ℕ × ℕ))}

theorem cursorAt_first (rowGroupRows : List ℕ) :
    CursorAt rowGroupRows ⟨0,0,rowGroupRows.head?.getD 0⟩ := by
  refine ⟨Nat.zero_le _,rfl,?_⟩
  rw [groupStart_succ]
  cases rowGroupRows with
  | nil => rfl
  | cons n rest => simp [groupStart]

theorem CursorAt.next (h : CursorAt rowGroupRows c) (hfit : rowGroupRows.sum < 2 ^ 64)
    (hlt : c.index < rowGroupRows.length) : CursorAt rowGroupRows (c.next rowGroupRows) := by
  refine ⟨hlt,h.stop,?_⟩
  have hle := groupStart_le rowGroupRows (c.index + 1 + 1)
  rw [groupStart_succ] at hle
  show saturatingAdd c.stop (rowGroupRows[c.index + 1]?.getD 0) = groupStart rowGroupRows (c.index + 1 + 1)
  rw [groupStart_succ,h.stop]
  exact rounds_saturateUnsigned 64 _ (show _ < 2 ^ 64 by omega)

theorem CursorAt.skip (h : CursorAt rowGroupRows c) (hfit : rowGroupRows.sum < 2 ^ 64) {position : ℕ}
    (hreached : c.start ≤ position) :
    CursorAt rowGroupRows (skipRowGroups rowGroupRows position c) ∧
      (skipRowGroups rowGroupRows position c).start ≤ position ∧
      ((skipRowGroups rowGroupRows position c).index < rowGroupRows.length →
        position < (skipRowGroups rowGroupRows position c).stop) := by
  induction c using skipRowGroups.induct rowGroupRows position with
  | case1 c hguard ih =>
    rw [skipRowGroups,if_pos hguard]
    exact ih (h.next hfit hguard.1) hguard.2
  | case2 c hguard =>
    rw [skipRowGroups,if_neg hguard]
    exact ⟨h,hreached,fun hlt => by omega⟩

theorem handed_start (rowGroupRows : List ℕ) (rows : List Bool) :
    Handed rowGroupRows rows 0 (rowGroupRows.map fun _ => []) := by
  refine ⟨List.length_map _,?_⟩
  intro k intervals hk
  rw [List.getElem?_map,Option.map_eq_some_iff] at hk
  obtain ⟨n,-,rfl⟩ := hk
  exact marks_nil fun i h => by omega

theorem Handed.skip {position stop : ℕ} (h : Handed rowGroupRows rows position runs)
    (hle : position ≤ stop) (hskip : ∀ i, position ≤ i → i < stop → rows[i]? ≠ some true) :
    Handed rowGroupRows rows stop runs := by
  refine ⟨h.1,?_⟩
  intro k intervals hk
  refine (h.2 k intervals hk).congr fun i => ?_
  constructor
  · rintro ⟨hlt,hrow⟩
    refine ⟨?_,hrow⟩
    by_contra hcon
    exact hskip _ (by omega) (by omega) hrow
  · rintro ⟨hlt,hrow⟩
    exact ⟨by omega,hrow⟩

theorem Handed.push {position stop : ℕ} (h : Handed rowGroupRows rows position runs)
    (hc : CursorAt rowGroupRows c) (hlt : position < stop) (hstart : c.start ≤ position) (hstop : stop ≤ c.stop)
    (hrows : ∀ i, position ≤ i → i < stop → rows[i]? = some true) :
    Handed rowGroupRows rows stop
      (runs.modify c.index (· ++ [(position - c.start,stop - position)])) := by
  refine ⟨by rw [List.length_modify]; exact h.1,?_⟩
  intro k intervals hk
  rw [List.getElem?_modify] at hk
  obtain ⟨old,hold,rfl⟩ := Option.map_eq_some_iff.mp hk
  have hmarks := h.2 k old hold
  rw [hc.start] at hstart ⊢
  rw [hc.stop] at hstop
  split_ifs with hindex
  · subst hindex
    refine hmarks.push (by omega) (fun i hi => by omega) fun i => ?_
    constructor
    · rintro ⟨hi,hrow⟩
      rcases lt_or_ge (groupStart rowGroupRows c.index + i) position with hlo | hhi
      · exact .inl ⟨by omega,hrow⟩
      · exact .inr (by omega)
    · rintro (⟨hi,hrow⟩ | hi)
      · exact ⟨by omega,hrow⟩
      · exact ⟨by omega,hrows _ (by omega) (by omega)⟩
  · -- the rows lie between the start and the end of another row group
    refine hmarks.congr fun i => and_congr_left fun _ => ?_
    rcases lt_or_gt_of_ne hindex with hlt' | hgt
    · have := groupStart_mono rowGroupRows hlt'
      simp only [Nat.succ_eq_add_one] at this
      omega
    · have := groupStart_mono rowGroupRows (Nat.succ_le_of_lt hgt)
      simp only [Nat.succ_eq_add_one] at this
      omega

/-- The loop over the row groups of one selector hands out all its rows. -/
theorem Handed.split {start selectorEnd : ℕ} (hfit : rowGroupRows.sum < 2 ^ 64)
    (hend : selectorEnd ≤ rowGroupRows.sum)
    (h : Handed rowGroupRows rows start runs) (hc : CursorAt rowGroupRows c) (hstart : c.start ≤ start)
    (hstop : c.index < rowGroupRows.length → start ≤ c.stop) (hle : start ≤ selectorEnd)
    (hrows : ∀ i, start ≤ i → i < selectorEnd → rows[i]? = some true) :
    Handed rowGroupRows rows selectorEnd (splitSelector rowGroupRows selectorEnd start c runs).2 ∧
      CursorAt rowGroupRows (splitSelector rowGroupRows selectorEnd start c runs).1 ∧
      (splitSelector rowGroupRows selectorEnd start c runs).1.start ≤ selectorEnd := by
  induction start, c, runs using splitSelector.induct rowGroupRows selectorEnd with
  | case1 start c runs hguard stop runs' hnext ih =>
    rw [splitSelector,if_pos hguard]
    simp only [stop,runs'] at hnext ih ⊢
    rw [if_pos hnext]
    have hstop := hstop hguard.1
    refine ih ?_ (hc.next hfit hguard.1) ?_ ?_ (by omega) fun i hi hlt => hrows i (by omega) hlt
    · split_ifs with hlt
      · exact h.push hc hlt hstart (by omega) fun i hi hlt => hrows i hi (by omega)
      · obtain heq : min selectorEnd c.stop = start := by omega
        rw [heq]
        exact h
    · show c.stop ≤ min selectorEnd c.stop
      omega
    · intro hlen
      have := (hc.next hfit hguard.1).stop
      have hmono := groupStart_mono rowGroupRows (Nat.le_succ (c.index + 1))
      rw [this]
      show min selectorEnd c.stop ≤ groupStart rowGroupRows (c.index + 1 + 1)
      rw [hc.stop]
      simp only [Nat.succ_eq_add_one] at hmono
      omega
  | case2 start c runs hguard stop runs' hnext ih =>
    rw [splitSelector,if_pos hguard]
    simp only [stop,runs'] at hnext ih ⊢
    rw [if_neg hnext]
    have hstop := hstop hguard.1
    refine ih ?_ hc (by omega) (fun _ => by omega) (by omega) fun i hi hlt => hrows i (by omega) hlt
    split_ifs with hlt
    · exact h.push hc hlt hstart (by omega) fun i hi hlt => hrows i hi (by omega)
    · omega
  | case3 start c runs hguard =>
    rw [splitSelector,if_neg hguard]
    -- behind the last row group no row is left
    have heq : start = selectorEnd := by
      rcases lt_or_ge c.index rowGroupRows.length with hlt | hge
      · omega
      · have := groupStart_of_length_le hge
        rw [hc.start] at hstart
        omega
    subst heq
    exact ⟨h,hc,hstart⟩

structure SplitInv (rowGroupRows : List ℕ) (rows : List Bool) (s : SelectorSplit) : Prop where
  handed : Handed rowGroupRows rows s.selectorStart s.runs
  cursor : CursorAt rowGroupRows s.cursor
  reached : s.cursor.start ≤ s.selectorStart

theorem SplitInv.step {s : SelectorSplit} {selector : RowSelector} (h : SplitInv rowGroupRows rows s)
    (hfit : rowGroupRows.sum < 2 ^ 64) (hend : s.selectorStart + selector.rowCount ≤ rowGroupRows.sum)
    (hrows : ∀ i, s.selectorStart ≤ i → i < s.selectorStart + selector.rowCount →
      rows[i]? = some !selector.skip) :
    SplitInv rowGroupRows rows (splitLateSelector rowGroupRows s selector) ∧
      (splitLateSelector rowGroupRows s selector).selectorStart = s.selectorStart + selector.rowCount := by
  have hadd : saturatingAdd s.selectorStart selector.rowCount = s.selectorStart + selector.rowCount :=
    rounds_saturateUnsigned 64 _ (show _ < 2 ^ 64 by omega)
  unfold splitLateSelector
  rw [hadd]
  cases hskip : selector.skip with
  | true =>
    rw [hskip] at hrows
    refine ⟨⟨h.handed.skip (Nat.le_add_right _ _) ?_,h.cursor,h.reached.trans (Nat.le_add_right _ _)⟩,rfl⟩
    intro i hi hlt
    rw [hrows i hi hlt]
    simp
  | false =>
    rw [hskip] at hrows
    obtain ⟨hcursor,hstart,hbefore⟩ := h.cursor.skip hfit h.reached
    obtain ⟨hhanded,hcursor',hstart'⟩ := h.handed.split hfit hend hcursor hstart
      (fun hlt => (hbefore hlt).le) (Nat.le_add_right _ _) hrows
    exact ⟨⟨hhanded,hcursor',hstart'⟩,rfl⟩

end Split

/-- Each row group gets the sorted, disjoint runs of the selected rows in it, relative to its start. -/
theorem splitLateSelectorsByRowGroup_marks {selectors : List RowSelector} {rowGroupRows : List ℕ}
    {rows : List Bool} (hrows : expandRuns (selectors.map RowSelector.run) = rows)
    (hlength : rows.length = rowGroupRows.sum) (hfit : rowGroupRows.sum < 2 ^ 64) :
    (splitLateSelectorsByRowGroup selectors rowGroupRows).length = rowGroupRows.length ∧
      ∀ k rowCount intervals, rowGroupRows[k]? = some rowCount →
        (splitLateSelectorsByRowGroup selectors rowGroupRows)[k]? = some intervals →
        Marks (fun i => i < rowCount ∧ rows[groupStart rowGroupRows k + i]? = some true) intervals := by
  have hinv : SplitInv rowGroupRows rows (selectors.foldl (splitLateSelector rowGroupRows)
        { runs := rowGroupRows.map fun _ => []
          selectorStart := 0
          cursor := ⟨0,0,rowGroupRows.head?.getD 0⟩ }) ∧
      (selectors.foldl (splitLateSelector rowGroupRows)
        { runs := rowGroupRows.map fun _ => []
          selectorStart := 0
          cursor := ⟨0,0,rowGroupRows.head?.getD 0⟩ }).selectorStart =
        (expandRuns (selectors.map RowSelector.run)).length := by
    refine foldl_inv (fun seen s => SplitInv rowGroupRows rows s ∧
      s.selectorStart = (expandRuns (seen.map RowSelector.run)).length)
      ⟨⟨handed_start rowGroupRows rows,cursorAt_first rowGroupRows,le_rfl⟩,rfl⟩ ?_
    rintro seen selector rest s hselectors ⟨hinv,hposition⟩
    have hsplit : rows = expandRuns (seen.map RowSelector.run) ++
        (List.replicate selector.rowCount (!selector.skip) ++ expandRuns (rest.map RowSelector.run)) := by
      rw [← hrows,hselectors]
      simp [RowSelector.run]
    have hend : s.selectorStart + selector.rowCount ≤ rowGroupRows.sum := by
      rw [← hlength,hsplit,hposition]
      simp only [List.length_append,List.length_replicate]
      omega
    obtain ⟨hnext,hstart⟩ := hinv.step hfit hend fun i hi hlt => by
      rw [hsplit,List.getElem?_append_right (by omega),List.getElem?_append_left (by
        rw [List.length_replicate]
        omega)]
      exact List.getElem?_replicate_of_lt (by omega)
    refine ⟨hnext,?_⟩
    rw [hstart,hposition]
    simp [RowSelector.run]
  obtain ⟨hinv,hposition⟩ := hinv
  refine ⟨hinv.handed.1,?_⟩
  intro k rowCount intervals hk hintervals
  refine (hinv.handed.2 k intervals hintervals).congr fun i => and_congr_left fun _ => ?_
  have hle := groupStart_le rowGroupRows (k + 1)
  rw [hposition,hrows,hlength,min_eq_right hle,groupStart_succ,hk]
  exact (Nat.add_lt_add_iff_left).symm

end Dodam.Engine
