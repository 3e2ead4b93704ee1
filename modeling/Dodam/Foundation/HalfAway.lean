import Dodam.Foundation.Numeral

/-! # Rounding half away from zero

A rational between two integers goes to the nearer one, and a half to the one that is further
from zero.
-/
namespace Dodam.Foundation

def halfAway (q : ℚ) : ℤ := if 0 ≤ q then round q else -round (-q)

theorem halfAway_neg (q : ℚ) : halfAway (-q) = -halfAway q := by
  unfold halfAway
  rcases lt_trichotomy q 0 with h | rfl | h
  · rw [if_pos (by linarith),if_neg (by linarith),neg_neg]
  · simp
  · rw [if_neg (by linarith),if_pos h.le,neg_neg]

theorem round_div {v k : ℤ} (hk : 0 < k) : round (v / k : ℚ) = v / k + if k ≤ 2 * (v % k) then 1 else 0 := by
  have hk' : (0 : ℚ) < k := by exact_mod_cast hk
  have hv : (v : ℚ) = k * (v / k : ℤ) + (v % k : ℤ) := by exact_mod_cast (Int.mul_ediv_add_emod v k).symm
  have hlow : (0 : ℚ) ≤ (v % k : ℤ) := by exact_mod_cast Int.emod_nonneg v hk.ne'
  have hhigh : ((v % k : ℤ) : ℚ) < k := by exact_mod_cast Int.emod_lt_of_pos v hk
  rw [round_eq,Int.floor_eq_iff,hv]
  have hsplit : (k * (v / k : ℤ) + (v % k : ℤ)) / k + 1 / 2 = ((v / k : ℤ) : ℚ) + ((v % k : ℤ) / k + 1 / 2) := by
    field_simp
    ring
  rw [hsplit]
  split_ifs with hhalf
  · have hhalf' : (k : ℚ) ≤ 2 * (v % k : ℤ) := by exact_mod_cast hhalf
    have hdiv : (1 : ℚ) / 2 ≤ (v % k : ℤ) / k := by
      rw [le_div_iff₀ hk']
      linarith
    have hdiv' : ((v % k : ℤ) : ℚ) / k < 1 := (div_lt_one hk').mpr hhigh
    push_cast
    constructor <;> linarith
  · have hhalf' : 2 * ((v % k : ℤ) : ℚ) < k := by exact_mod_cast not_le.mp hhalf
    have hdiv : ((v % k : ℤ) : ℚ) / k < 1 / 2 := by
      rw [div_lt_iff₀ hk']
      linarith
    have hdiv' : 0 ≤ ((v % k : ℤ) : ℚ) / k := div_nonneg hlow hk'.le
    push_cast
    constructor <;> linarith

/-- A quotient is cut off, and moved away from zero when the remainder is half of the divisor or more. -/
theorem halfAway_div {v k : ℤ} (hk : 0 < k) : halfAway (v / k : ℚ) =
    v.tdiv k + if k ≤ 2 * |v.tmod k| then if v < 0 then -1 else 1 else 0 := by
  have hpos : ∀ w : ℤ, 0 ≤ w → halfAway (w / k : ℚ) = w.tdiv k + if k ≤ 2 * |w.tmod k| then 1 else 0 := by
    intro w hw
    have hq : (0 : ℚ) ≤ w / k := div_nonneg (by exact_mod_cast hw) (by exact_mod_cast hk.le)
    rw [halfAway,if_pos hq,round_div hk,Int.tdiv_eq_ediv_of_nonneg hw,Int.tmod_eq_emod_of_nonneg hw,
      abs_of_nonneg (Int.emod_nonneg w hk.ne')]
  rcases le_or_gt 0 v with hv | hv
  · rw [hpos v hv,if_neg (not_lt.mpr hv)]
  · have hneg := hpos (-v) (by omega)
    rw [Int.neg_tdiv,Int.neg_tmod,abs_neg,Int.cast_neg,neg_div,halfAway_neg] at hneg
    rw [if_pos hv]
    split_ifs at hneg ⊢ <;> omega

theorem halfAway_intCast (n : ℤ) : halfAway (n : ℚ) = n := by
  have h := @halfAway_div n 1 one_pos
  simpa using h

namespace Numeral

/-- The first digit that a scale drops rounds up from five on. -/
def roundsUp (n : Numeral) (scale : ℕ) : Bool := n.fractional[scale]?.any fun digit => '5' ≤ digit

def rounded (n : Numeral) (scale : ℕ) : ℕ := n.kept scale + if n.roundsUp scale then 1 else 0

theorem kept_succ (n : Numeral) (scale : ℕ) :
    n.kept (scale + 1) = 10 * n.kept scale + (n.fractional[scale]?.map digitValue).getD 0 := by
  unfold kept
  rcases Nat.lt_or_ge scale n.fractional.length with h | h
  · have hlen : (n.fractional.take scale).length = scale := by
      rw [List.length_take]
      omega
    have hone : digitsValue [n.fractional[scale]] = digitValue n.fractional[scale] := by simp [digitsValue]
    rw [List.take_succ_eq_append_getElem h,List.length_append,hlen,digitsValue_append,hone,List.getElem?_eq_getElem h]
    simp only [List.length_singleton,Nat.sub_self,pow_zero,pow_one,Option.map_some,Option.getD_some]
    ring
  · rw [List.take_of_length_le h,List.take_of_length_le (by omega),List.getElem?_eq_none h]
    have hsub : scale + 1 - n.fractional.length = scale - n.fractional.length + 1 := by omega
    rw [hsub]
    simp only [Option.map_none,Option.getD_none]
    ring

theorem roundsUp_iff (n : Numeral) (scale : ℕ) :
    n.roundsUp scale = true ↔ 5 ≤ (n.fractional[scale]?.map digitValue).getD 0 := by
  unfold roundsUp
  cases hd : n.fractional[scale]? with
  | none => simp
  | some digit =>
    have hfive : '5' ≤ digit ↔ 53 ≤ digit.toNat := Char.le_def.trans UInt32.le_iff_toNat_le
    have hdigit := Char.isDigit_iff_toNat.mp (n.fractional_digits digit (List.mem_of_getElem? hd))
    simp only [Option.any_some,decide_eq_true_eq,Option.map_some,Option.getD_some,hfive,digitValue]
    omega

theorem round_magnitude (n : Numeral) (scale : ℕ) :
    round (n.magnitude * 10 ^ scale) = n.rounded scale := by
  have hnext := (Int.floor_eq_iff.mp (n.floor_magnitude (scale + 1)))
  have hdigit : (n.fractional[scale]?.map digitValue).getD 0 < 10 := by
    cases hd : n.fractional[scale]? with
    | none => simp
    | some digit =>
      exact digitValue_lt (n.fractional_digits digit (List.mem_of_getElem? hd))
  obtain ⟨d,hd⟩ : ∃ d, d = (n.fractional[scale]?.map digitValue).getD 0 := ⟨_,rfl⟩
  have hup := n.roundsUp_iff scale
  rw [n.kept_succ,← hd,pow_succ,← mul_assoc] at hnext
  rw [← hd] at hup hdigit
  rw [round_eq,Int.floor_eq_iff,rounded]
  push_cast at hnext ⊢
  split_ifs with h
  · have hfive : (5 : ℚ) ≤ d := by exact_mod_cast hup.mp h
    have hten : (d : ℚ) ≤ 9 := by exact_mod_cast Nat.le_of_lt_succ hdigit
    constructor <;> linarith
  · have hfour : (d : ℚ) ≤ 4 := by
      exact_mod_cast Nat.le_of_lt_succ (not_le.mp fun h5 => h (hup.mpr h5))
    constructor <;> linarith

theorem halfAway_value (n : Numeral) (scale : ℕ) :
    halfAway (n.value * 10 ^ scale) = if n.negative then -(n.rounded scale : ℤ) else n.rounded scale := by
  have hpos : 0 ≤ n.magnitude * 10 ^ scale := by
    unfold magnitude
    positivity
  have hround : halfAway (n.magnitude * 10 ^ scale) = n.rounded scale := (if_pos hpos).trans (n.round_magnitude scale)
  unfold value
  split_ifs
  · rw [neg_mul,halfAway_neg,hround]
  · exact hround

end Numeral
end Dodam.Foundation
