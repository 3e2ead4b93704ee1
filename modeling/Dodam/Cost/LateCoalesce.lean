import Dodam.Foundation.Machine

/-! # Choice of the gap that late selections coalesce

A selection may read the rows between two selected ones when that saves selector runs. The
search is a loop whose counter saturates, so it carries fuel.
-/
namespace Dodam.Cost
open Foundation

/-- Saturating addition and multiplication of `usize`. -/
def saturatingAdd (a b : ℕ) : ℕ := saturateUnsigned 64 (a + b)
def saturatingMul (a b : ℕ) : ℕ := saturateUnsigned 64 (a * b)

structure LateCoalesceGapCostInput where
  selectedRows : ℕ
  naturalSelectorRuns : ℕ
  candidateSelectorRuns : ℕ
  candidatePayloadRows : ℕ
  selectorRunCostRows : ℕ
  maxPayloadExpansionRowsPerSelected : ℕ

def chooseLateCoalesceCandidate (input : LateCoalesceGapCostInput) : Bool :=
  if input.selectedRows = 0 then false
  else if input.candidatePayloadRows < input.selectedRows then false
  else
    let maxPayloadRows := saturatingAdd input.selectedRows
      (saturatingMul input.selectedRows input.maxPayloadExpansionRowsPerSelected)
    if maxPayloadRows < input.candidatePayloadRows then false
    else
      let runCost := max input.selectorRunCostRows 1
      let naturalCost := saturatingAdd input.selectedRows (saturatingMul input.naturalSelectorRuns runCost)
      let candidateCost := saturatingAdd input.candidatePayloadRows
        (saturatingMul input.candidateSelectorRuns runCost)
      candidateCost < naturalCost

def lateCoalesceCandidateOffset (maxGap : ℕ) (state : ℕ × ℕ × ℕ) (offset : ℕ) : ℕ × ℕ × ℕ :=
  let (runs,payloadRows,previous) := state
  if offset ≤ previous then state
  else
    let gap := offset - previous - 1
    if gap ≤ maxGap then (runs,saturatingAdd (saturatingAdd payloadRows gap) 1,offset)
    else (saturatingAdd runs 1,saturatingAdd payloadRows 1,offset)

def lateCoalesceCandidateMetrics (selectedOffsets : List ℕ) (maxGap : ℕ) : ℕ × ℕ :=
  match selectedOffsets with
  | [] => (0,0)
  | first :: rest =>
    let (runs,payloadRows,_) := rest.foldl (lateCoalesceCandidateOffset maxGap) (1,1,first)
    (runs,payloadRows)

/-- The costs the process reads from its environment. -/
structure LateCoalesceTuning where
  selectorRunCostRows : ℕ
  maxPayloadExpansionRowsPerSelected : ℕ

/-- The better of the best gap so far, with its cost, and a candidate. -/
def considerGap (tuning : LateCoalesceTuning) (selectedOffsets : List ℕ) (candidate : ℕ)
    (best : ℕ × ℕ) : ℕ × ℕ :=
  let (candidateRuns,candidatePayloadRows) := lateCoalesceCandidateMetrics selectedOffsets candidate
  if chooseLateCoalesceCandidate {
      selectedRows := selectedOffsets.length
      naturalSelectorRuns := selectedOffsets.length
      candidateSelectorRuns := candidateRuns
      candidatePayloadRows := candidatePayloadRows
      selectorRunCostRows := tuning.selectorRunCostRows
      maxPayloadExpansionRowsPerSelected := tuning.maxPayloadExpansionRowsPerSelected } then
    let candidateCost := saturatingAdd candidatePayloadRows
      (saturatingMul candidateRuns (max tuning.selectorRunCostRows 1))
    if candidateCost < best.2 then (candidate,candidateCost) else best
  else best

/-- The loop over the powers of two; `none` when the fuel is used up. -/
def coalesceGapLoop (tuning : LateCoalesceTuning) (selectedOffsets : List ℕ) (maxGap : ℕ) :
    ℕ → ℕ → ℕ × ℕ → Option (ℕ × ℕ)
  | 0, _, _ => none
  | fuel + 1, candidate, best =>
    if candidate ≤ maxGap then
      let best := considerGap tuning selectedOffsets candidate best
      let candidate := saturatingMul candidate 2
      if candidate = 0 then some best
      else coalesceGapLoop tuning selectedOffsets maxGap fuel candidate best
    else some best

/-- The cost of reading every offset as a run of its own. -/
def uncoalescedCost (tuning : LateCoalesceTuning) (selectedOffsets : List ℕ) : ℕ :=
  saturatingAdd selectedOffsets.length
    (saturatingMul selectedOffsets.length (max tuning.selectorRunCostRows 1))

def chooseLateCoalesceMaxGap (tuning : LateCoalesceTuning) (fuel : ℕ) (selectedOffsets : List ℕ)
    (maxGap : ℕ) : Option ℕ :=
  if maxGap = 0 ∨ selectedOffsets.length ≤ 1 then some 0
  else
    (coalesceGapLoop tuning selectedOffsets maxGap fuel 1
      (0,uncoalescedCost tuning selectedOffsets)).map fun best =>
        if best.1 < maxGap then (considerGap tuning selectedOffsets maxGap best).1 else best.1

variable {tuning : LateCoalesceTuning} {selectedOffsets : List ℕ} {maxGap : ℕ}

variable (tuning selectedOffsets) in
theorem considerGap_fst (candidate : ℕ) (best : ℕ × ℕ) :
    (considerGap tuning selectedOffsets candidate best).1 = candidate ∨
      (considerGap tuning selectedOffsets candidate best).1 = best.1 := by
  unfold considerGap
  dsimp only
  split_ifs
  · exact .inl rfl
  · exact .inr rfl
  · exact .inr rfl

variable {candidate fuel gap : ℕ} {best : ℕ × ℕ}

theorem considerGap_fst_le (hc : candidate ≤ maxGap)
    (hb : best.1 ≤ maxGap) : (considerGap tuning selectedOffsets candidate best).1 ≤ maxGap := by
  rcases considerGap_fst tuning selectedOffsets candidate best with h | h
  · exact h.trans_le hc
  · exact h.trans_le hb

theorem saturatingMul_saturate (x : ℕ) :
    saturatingMul (saturateUnsigned 64 x) 2 = saturateUnsigned 64 (x * 2) := by
  simp only [saturatingMul,saturateUnsigned,maxUnsigned]
  omega

theorem saturatingMul_ne_zero {x : ℕ} (hx : 0 < x) : saturatingMul x 2 ≠ 0 := by
  simp only [saturatingMul,saturateUnsigned,maxUnsigned]
  omega

theorem coalesceGapLoop_of_le (hpos : 0 < candidate) (hle : candidate ≤ maxGap) :
    coalesceGapLoop tuning selectedOffsets maxGap (fuel + 1) candidate best =
      coalesceGapLoop tuning selectedOffsets maxGap fuel (saturatingMul candidate 2)
        (considerGap tuning selectedOffsets candidate best) := by
  rw [coalesceGapLoop,if_pos hle]
  exact if_neg (saturatingMul_ne_zero hpos)

theorem coalesceGapLoop_of_gt (hgt : maxGap < candidate) :
    coalesceGapLoop tuning selectedOffsets maxGap (fuel + 1) candidate best = some best := by
  rw [coalesceGapLoop,if_neg (by omega)]

theorem coalesceGapLoop_le {result : ℕ × ℕ} (hpos : 0 < candidate) (hbest : best.1 ≤ maxGap)
    (h : coalesceGapLoop tuning selectedOffsets maxGap fuel candidate best = some result) :
    result.1 ≤ maxGap := by
  induction fuel generalizing candidate best with
  | zero => cases h
  | succ fuel ih =>
    rcases le_or_gt candidate maxGap with hle | hgt
    · rw [coalesceGapLoop_of_le hpos hle] at h
      exact ih (Nat.pos_of_ne_zero (saturatingMul_ne_zero hpos)) (considerGap_fst_le hle hbest) h
    · rw [coalesceGapLoop_of_gt hgt] at h
      cases h
      exact hbest

variable (tuning selectedOffsets) in
theorem coalesceGapLoop_returns (hmax : maxGap < maxUnsigned 64) (fuel k : ℕ) (hk : 65 ≤ fuel + k)
    (hfuel : 0 < fuel) (best : ℕ × ℕ) :
    ∃ result, coalesceGapLoop tuning selectedOffsets maxGap fuel (saturateUnsigned 64 (2 ^ k)) best =
      some result := by
  induction fuel generalizing k best with
  | zero => omega
  | succ fuel ih =>
    have hpos : 0 < saturateUnsigned 64 (2 ^ k) := by
      have := Nat.two_pow_pos k
      simp only [saturateUnsigned,maxUnsigned]
      omega
    rcases le_or_gt (saturateUnsigned 64 (2 ^ k)) maxGap with hle | hgt
    · rw [coalesceGapLoop_of_le hpos hle,saturatingMul_saturate,← pow_succ]
      have hk64 : k < 64 := by
        by_contra h
        have hpow := Nat.pow_le_pow_right (by omega : 0 < 2) (by omega : 64 ≤ k)
        simp only [saturateUnsigned,maxUnsigned] at hle hmax
        omega
      exact ih _ (by omega) (by omega) _
    · exact ⟨best,coalesceGapLoop_of_gt hgt⟩

theorem coalesceGapLoop_maxUnsigned (hmax : maxGap = maxUnsigned 64) (fuel : ℕ)
    (hpos : 0 < candidate) (hle : candidate ≤ maxGap) (best : ℕ × ℕ) :
    coalesceGapLoop tuning selectedOffsets maxGap fuel candidate best = none := by
  induction fuel generalizing candidate best with
  | zero => rfl
  | succ fuel ih =>
    rw [coalesceGapLoop_of_le hpos hle]
    exact ih (Nat.pos_of_ne_zero (saturatingMul_ne_zero hpos)) (hmax ▸ min_le_right _ _) _

theorem chooseLateCoalesceMaxGap_le
    (h : chooseLateCoalesceMaxGap tuning fuel selectedOffsets maxGap = some gap) : gap ≤ maxGap := by
  unfold chooseLateCoalesceMaxGap at h
  split_ifs at h with hzero
  · cases h
    omega
  · obtain ⟨best,hbest,rfl⟩ := Option.map_eq_some_iff.mp h
    have hle := coalesceGapLoop_le Nat.one_pos (Nat.zero_le _) hbest
    split_ifs
    · exact considerGap_fst_le le_rfl hle
    · exact hle

/-- The search ends after 65 rounds, unless the maximum is the largest `usize` and there are two
offsets to coalesce. -/
theorem chooseLateCoalesceMaxGap_returns (h : maxGap < maxUnsigned 64 ∨ selectedOffsets.length ≤ 1) :
    ∃ gap, chooseLateCoalesceMaxGap tuning 65 selectedOffsets maxGap = some gap := by
  unfold chooseLateCoalesceMaxGap
  split_ifs with hzero
  · exact ⟨0,rfl⟩
  · have hlt : maxGap < maxUnsigned 64 := by omega
    have hone : saturateUnsigned 64 (2 ^ 0) = 1 := by decide
    obtain ⟨result,hresult⟩ := coalesceGapLoop_returns tuning selectedOffsets hlt 65 0 (by omega)
      (by omega) (0,uncoalescedCost tuning selectedOffsets)
    rw [hone] at hresult
    rw [hresult]
    exact ⟨_,rfl⟩

theorem chooseLateCoalesceMaxGap_ends (hmax : maxGap ≤ maxUnsigned 64)
    (h : chooseLateCoalesceMaxGap tuning fuel selectedOffsets maxGap = some gap) :
    maxGap < maxUnsigned 64 ∨ selectedOffsets.length ≤ 1 := by
  by_contra hcon
  have hzero : 0 < maxUnsigned 64 := by decide
  rw [chooseLateCoalesceMaxGap,if_neg (by omega),
    coalesceGapLoop_maxUnsigned (by omega) fuel Nat.one_pos (by omega)] at h
  cases h

end Dodam.Cost
