import Dodam.Engine.LateSelection

/-! # What coalescing a late selection costs

The rows that the chosen gap reads beyond the selected ones are counted twice: by the cost
model, when it weighs a candidate, and by the builder, which marks each of them.
-/
namespace Dodam.Engine
open Foundation Cost LateSelectionBuilder

/-- The rows in the gaps that are at most `maxGap` wide. -/
def gapRows (maxGap : ℕ) : ℕ → List ℕ → ℕ
  | _, [] => 0
  | consumed, offset :: rest =>
    (if offset - consumed ≤ maxGap then offset - consumed else 0) + gapRows maxGap (offset + 1) rest

variable {tuning : LateCoalesceTuning} {maxGap gap rowCount : ℕ} {offsets : List ℕ}

theorem saturatingAdd_of_le {a b : ℕ} (h : a + b ≤ maxUnsigned 64) : saturatingAdd a b = a + b := min_eq_left h

variable (maxGap) in
theorem lateCoalesceCandidateOffset_foldl (hbound : ∀ offset ∈ offsets, offset ≤ maxUnsigned 32) (runs : ℕ)
    {payloadRows previous : ℕ} (hpayload : payloadRows ≤ previous + 1)
    (hsorted : (previous :: offsets).Pairwise (· < ·)) :
    (offsets.foldl (lateCoalesceCandidateOffset maxGap) (runs,payloadRows,previous)).2.1 =
      payloadRows + offsets.length + gapRows maxGap (previous + 1) offsets := by
  induction offsets generalizing runs payloadRows previous with
  | nil => simp [gapRows]
  | cons offset rest ih =>
    obtain ⟨hprevious,hrest⟩ := List.pairwise_cons.mp hsorted
    have hlt := hprevious offset (by simp)
    have hle : offset ≤ 4294967295 := hbound offset (by simp)
    have hmax : maxUnsigned 64 = 18446744073709551615 := rfl
    have hgap : offset - (previous + 1) = offset - previous - 1 := by omega
    have ih := fun runs payloadRows h => @ih (fun o ho => hbound o (by simp [ho])) runs payloadRows offset h hrest
    have hfit : payloadRows + (offset - previous - 1) + 1 ≤ maxUnsigned 64 := by omega
    rw [List.foldl_cons,lateCoalesceCandidateOffset,if_neg (by omega),gapRows,hgap]
    dsimp only
    split_ifs with hwide
    · rw [saturatingAdd_of_le (Nat.le_of_succ_le hfit),saturatingAdd_of_le hfit,ih _ _ (by omega),List.length_cons]
      omega
    · rw [@saturatingAdd_of_le payloadRows 1 (by omega),ih _ _ (by omega),List.length_cons]
      omega

theorem lateCoalesceCandidateMetrics_snd {first : ℕ} {rest : List ℕ}
    (hsorted : (first :: rest).Pairwise (· < ·)) (hbound : ∀ offset ∈ first :: rest, offset ≤ maxUnsigned 32) :
    (lateCoalesceCandidateMetrics (first :: rest) maxGap).2 =
      (first :: rest).length + gapRows maxGap (first + 1) rest := by
  have h := lateCoalesceCandidateOffset_foldl maxGap
    (fun o ho => hbound o (List.mem_cons_of_mem _ ho)) 1 (by omega : 1 ≤ first + 1) hsorted
  rw [List.length_cons,Nat.add_comm rest.length]
  exact h

theorem chooseLateCoalesceCandidate_le {input : LateCoalesceGapCostInput}
    (h : chooseLateCoalesceCandidate input = true) : input.candidatePayloadRows ≤
      input.selectedRows + input.selectedRows * input.maxPayloadExpansionRowsPerSelected := by
  simp only [chooseLateCoalesceCandidate] at h
  split_ifs at h with hzero hfew hmany
  have hmul : saturatingMul input.selectedRows input.maxPayloadExpansionRowsPerSelected ≤
    input.selectedRows * input.maxPayloadExpansionRowsPerSelected := min_le_left _ _
  have hadd : saturatingAdd input.selectedRows
      (saturatingMul input.selectedRows input.maxPayloadExpansionRowsPerSelected) ≤
    input.selectedRows + saturatingMul input.selectedRows input.maxPayloadExpansionRowsPerSelected := min_le_left _ _
  omega

/-- The gap is zero, or it stays within the expansion. -/
def GapAccepted (tuning : LateCoalesceTuning) (offsets : List ℕ) (gap : ℕ) : Prop :=
  gap = 0 ∨ (lateCoalesceCandidateMetrics offsets gap).2 ≤
    offsets.length + offsets.length * tuning.maxPayloadExpansionRowsPerSelected

theorem considerGap_accepted {best : ℕ × ℕ} (hbest : GapAccepted tuning offsets best.1) (candidate : ℕ) :
    GapAccepted tuning offsets (considerGap tuning offsets candidate best).1 := by
  unfold considerGap
  dsimp only
  split_ifs with haccept hcheap
  · exact .inr (chooseLateCoalesceCandidate_le haccept)
  · exact hbest
  · exact hbest

theorem coalesceGapLoop_accepted {fuel candidate : ℕ} {best result : ℕ × ℕ}
    (hbest : GapAccepted tuning offsets best.1)
    (h : coalesceGapLoop tuning offsets maxGap fuel candidate best = some result) :
    GapAccepted tuning offsets result.1 := by
  induction fuel generalizing candidate best with
  | zero => cases h
  | succ fuel ih =>
    simp only [coalesceGapLoop] at h
    split_ifs at h
    · cases h
      exact considerGap_accepted hbest candidate
    · exact ih (considerGap_accepted hbest candidate) h
    · cases h
      exact hbest

theorem chooseLateCoalesceMaxGap_accepted {fuel : ℕ}
    (h : chooseLateCoalesceMaxGap tuning fuel offsets maxGap = some gap) : GapAccepted tuning offsets gap := by
  unfold chooseLateCoalesceMaxGap at h
  split_ifs at h with hzero
  · exact .inl (Option.some.inj h).symm
  · obtain ⟨best,hbest,rfl⟩ := Option.map_eq_some_iff.mp h
    have hacc := coalesceGapLoop_accepted (.inl rfl) hbest
    split_ifs
    · exact considerGap_accepted hacc maxGap
    · exact hacc

theorem coalesceOffset_beyond (s : OffsetLoop) (h : ∀ offset ∈ offsets, rowCount ≤ offset) :
    offsets.foldl (coalesceOffset rowCount gap) s = s := by
  induction offsets with
  | nil => rfl
  | cons offset rest ih =>
    rw [List.foldl_cons,coalesceOffset,if_pos (.inl (h offset (by simp)))]
    exact ih fun o ho => h o (by simp [ho])

variable (gap)

theorem count_none_coalesceGap (s : OffsetLoop) (skipped : ℕ) : (coalesceGap gap s skipped).markers.count none ≤
    s.markers.count none + if skipped ≤ gap then skipped else 0 := by
  unfold coalesceGap
  split_ifs with hpos hclose hle hle
  · exact (List.count_append ..).trans_le (by rw [List.count_replicate_self])
  · exact absurd hclose.2.1 hle
  all_goals exact Nat.le_add_right _ _

theorem coalesceOffset_of_lt {s : OffsetLoop} {offset : ℕ} (hlt : offset < rowCount) (hle : s.consumed ≤ offset) :
    (coalesceOffset rowCount gap s offset).consumed = offset + 1 ∧
      (coalesceOffset rowCount gap s offset).markers.count none =
        (coalesceGap gap s (offset - s.consumed)).markers.count none := by
  rw [coalesceOffset,if_neg (by omega)]
  exact ⟨rfl,by simp⟩

theorem count_none_le (s : OffsetLoop) (hsorted : offsets.Pairwise (· < ·))
    (hle : ∀ offset ∈ offsets, s.consumed ≤ offset) :
    (offsets.foldl (coalesceOffset rowCount gap) s).markers.count none ≤
      s.markers.count none + gapRows gap s.consumed offsets := by
  induction offsets generalizing s with
  | nil => exact Nat.le_add_right _ _
  | cons offset rest ih =>
    obtain ⟨hhead,hrest⟩ := List.pairwise_cons.mp hsorted
    rcases Nat.lt_or_ge offset rowCount with hlt | hge
    · obtain ⟨hconsumed,hcount⟩ := coalesceOffset_of_lt gap hlt (hle offset (by simp))
      have hstep := ih (coalesceOffset rowCount gap s offset) hrest fun o ho =>
        hconsumed.trans_le (hhead o ho)
      have hgap := count_none_coalesceGap gap s (offset - s.consumed)
      rw [hconsumed,hcount] at hstep
      rw [List.foldl_cons,gapRows]
      omega
    · have hbeyond : ∀ o ∈ offset :: rest, rowCount ≤ o := by
        intro o ho
        rcases List.mem_cons.mp ho with rfl | ho
        · exact hge
        · exact hge.trans (hhead o ho).le
      rw [coalesceOffset_beyond s hbeyond]
      exact Nat.le_add_right _ _

variable {gap}

theorem extraRows_le (b : LateSelectionBuilder) (hsorted : offsets.Pairwise (· < ·))
    (hbound : ∀ offset ∈ offsets, offset ≤ maxUnsigned 32) (hacc : GapAccepted tuning offsets gap) :
    (offsets.foldl (coalesceOffset rowCount gap) { builder := b }).markers.count none ≤
      offsets.length * tuning.maxPayloadExpansionRowsPerSelected := by
  cases offsets with
  | nil => simp
  | cons first rest =>
    obtain ⟨hhead,hrest⟩ := List.pairwise_cons.mp hsorted
    rcases Nat.lt_or_ge first rowCount with hlt | hge
    · have hfirst : (coalesceGap gap { builder := b } first).markers.count none = 0 := by
        unfold coalesceGap
        split_ifs <;> simp_all
      obtain ⟨hconsumed,hcount⟩ := @coalesceOffset_of_lt gap rowCount { builder := b } first hlt (Nat.zero_le _)
      have hcount := hcount.trans hfirst
      have hle := @count_none_le gap rowCount _ _ hrest fun o ho => hconsumed.trans_le (hhead o ho)
      rw [hconsumed,hcount] at hle
      rw [List.foldl_cons]
      rcases hacc with rfl | hacc
      · have hzero : ∀ (consumed : ℕ) (l : List ℕ), gapRows 0 consumed l = 0 := by
          intro consumed l
          induction l generalizing consumed with
          | nil => rfl
          | cons o l ih => simp [gapRows,ih,Nat.sub_eq_zero_iff_le]
        rw [hzero] at hle
        omega
      · rw [lateCoalesceCandidateMetrics_snd hsorted hbound] at hacc
        omega
    · rw [coalesceOffset_beyond]
      · simp
      · intro o ho
        rcases List.mem_cons.mp ho with rfl | ho
        · exact hge
        · exact hge.trans (hhead o ho).le

/-- The choice of the gap is bounded in time and in rows, unless the maximum is the largest `usize`
and there are two offsets: then the doubled candidate saturates and the search goes on. -/
theorem lateGap_bounded_iff (tuning : LateCoalesceTuning) (offsets : List ℕ) (maxGap : ℕ)
    (hmax : maxGap ≤ maxUnsigned 64) :
    ((∃ fuel gap, chooseLateCoalesceMaxGap tuning fuel offsets maxGap = some gap) ∧
      (∀ fuel gap, chooseLateCoalesceMaxGap tuning fuel offsets maxGap = some gap → gap ≤ maxGap) ∧
      (offsets.Pairwise (· < ·) → (∀ offset ∈ offsets, offset ≤ maxUnsigned 32) →
        ∀ fuel b rowCount b' markers,
          pushSelectedU32OffsetsCoalesced tuning fuel b rowCount offsets maxGap = some (b',markers) →
            markers.count none ≤ offsets.length * tuning.maxPayloadExpansionRowsPerSelected)) ↔
      maxGap < maxUnsigned 64 ∨ offsets.length ≤ 1 := by
  constructor
  · rintro ⟨⟨fuel,gap,hgap⟩,-⟩
    exact chooseLateCoalesceMaxGap_ends hmax hgap
  · intro h
    refine ⟨⟨65,chooseLateCoalesceMaxGap_returns h⟩,fun _ _ => chooseLateCoalesceMaxGap_le,?_⟩
    intro hsorted hbound fuel b rowCount b' markers hpush
    obtain ⟨gap,hgap,hresult⟩ := Option.map_eq_some_iff.mp hpush
    cases hresult
    exact extraRows_le b hsorted hbound (chooseLateCoalesceMaxGap_accepted hgap)

theorem lateGap_bounded_pair : ∃ fuel gap, chooseLateCoalesceMaxGap ⟨8,64⟩ fuel [0,2] 4 = some gap :=
  ((lateGap_bounded_iff ⟨8,64⟩ [0,2] 4 (by decide)).mpr (.inl (by decide))).1

theorem lateGap_largest_maximum : ¬ ∃ fuel gap, chooseLateCoalesceMaxGap ⟨8,64⟩ fuel [0,2] (maxUnsigned 64) = some gap := by
  rintro ⟨fuel,gap,h⟩
  rw [chooseLateCoalesceMaxGap,if_neg (by decide),
    coalesceGapLoop_maxUnsigned rfl fuel Nat.one_pos (by decide)] at h
  cases h

end Dodam.Engine
