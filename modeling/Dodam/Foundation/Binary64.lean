import Mathlib.Data.Int.Log
import Mathlib.Data.Rat.Floor
import Mathlib.Tactic.Positivity

/-! # Rounding to binary floating point

A result of 64-bit floating point is the exact rational rounded to the nearest multiple of a
unit that leaves 53 bits; halves go to the even multiple.
-/
namespace Dodam.Foundation

/-- The nearest integer, the even one of two. -/
def roundHalfEven (q : ℚ) : ℤ :=
  if q - ⌊q⌋ < 1 / 2 then ⌊q⌋
  else if 1 / 2 < q - ⌊q⌋ then ⌊q⌋ + 1
  else if Even ⌊q⌋ then ⌊q⌋ else ⌊q⌋ + 1

/-- The nearest integer, the one farther from zero of two. -/
def roundHalfAway (q : ℚ) : ℤ := if 0 ≤ q then ⌊q + 1 / 2⌋ else ⌈q - 1 / 2⌉

/-- The distance between the values next to a number. -/
def binary64Unit (q : ℚ) : ℚ := 2 ^ max (Int.log 2 |q| - 52) (-1074)

def binary64 (q : ℚ) : ℚ := roundHalfEven (q / binary64Unit q) * binary64Unit q

section Error

theorem abs_roundHalfEven_sub_le (q : ℚ) : |(roundHalfEven q : ℚ) - q| ≤ 1 / 2 := by
  have hlow := Int.floor_le q
  have hhigh := Int.lt_floor_add_one q
  unfold roundHalfEven
  split_ifs <;> push_cast <;> rw [abs_le] <;> constructor <;> linarith

theorem roundHalfAway_eq {q : ℚ} {n : ℤ} (h : |q - n| < 1 / 2) : roundHalfAway q = n := by
  obtain ⟨hlow,hhigh⟩ := abs_lt.mp h
  unfold roundHalfAway
  split_ifs
  · rw [Int.floor_eq_iff]
    constructor <;> linarith
  · rw [Int.ceil_eq_iff]
    constructor <;> linarith

theorem binary64Unit_pos (q : ℚ) : 0 < binary64Unit q := zpow_pos (by norm_num) _

theorem abs_binary64_sub_le (q : ℚ) : |binary64 q - q| ≤ binary64Unit q / 2 := by
  have hunit := binary64Unit_pos q
  have hscaled : binary64 q - q = (roundHalfEven (q / binary64Unit q) - q / binary64Unit q) * binary64Unit q := by
    rw [sub_mul,div_mul_cancel₀ _ hunit.ne']
    rfl
  calc |binary64 q - q| = |(roundHalfEven (q / binary64Unit q) : ℚ) - q / binary64Unit q| * binary64Unit q := by
        rw [hscaled,abs_mul,abs_of_pos hunit]
    _ ≤ 1 / 2 * binary64Unit q := mul_le_mul_of_nonneg_right (abs_roundHalfEven_sub_le _) hunit.le
    _ = binary64Unit q / 2 := by ring

abbrev epsilon : ℚ := 1 / 2 ^ 53

theorem abs_binary64_sub_le_mul {q : ℚ} (h : (2 : ℚ) ^ (-1022 : ℤ) ≤ |q|) : |binary64 q - q| ≤ |q| * epsilon := by
  have hpos : 0 < |q| := lt_of_lt_of_le (zpow_pos (by norm_num) _) h
  have hlog : (-1022 : ℤ) ≤ Int.log 2 |q| := (Int.zpow_le_iff_le_log (by norm_num) hpos).mp (by exact_mod_cast h)
  have hself : (2 : ℚ) ^ Int.log 2 |q| ≤ |q| := by exact_mod_cast Int.zpow_log_le_self (b := 2) (by norm_num) hpos
  have hunit : binary64Unit q = 2 ^ Int.log 2 |q| * (1 / 2 ^ 52) := by
    rw [binary64Unit,max_eq_left (by omega),zpow_sub₀ (by norm_num),div_eq_mul_one_div]
    norm_cast
  refine (abs_binary64_sub_le q).trans ?_
  rw [hunit,epsilon]
  linarith

theorem abs_mul_sub_mul_le {x y a b e : ℚ} (ha : |a - x| ≤ |x| * e) (hb : |b - y| ≤ |y| * e) :
    |a * b - x * y| ≤ |x * y| * (2 * e + e * e) := by
  have hsplit : a * b - x * y = (a - x) * (b - y) + (a - x) * y + x * (b - y) := by ring
  have hboth : |a - x| * |b - y| ≤ |x| * e * (|y| * e) := mul_le_mul ha hb (abs_nonneg _) ((abs_nonneg _).trans ha)
  have hleft : |a - x| * |y| ≤ |x| * e * |y| := mul_le_mul_of_nonneg_right ha (abs_nonneg y)
  have hright : |x| * |b - y| ≤ |x| * (|y| * e) := mul_le_mul_of_nonneg_left hb (abs_nonneg x)
  calc |a * b - x * y| ≤ |a - x| * |b - y| + |a - x| * |y| + |x| * |b - y| := by
        rw [hsplit,← abs_mul,← abs_mul,← abs_mul]
        exact abs_add_three _ _ _
    _ ≤ |x| * e * (|y| * e) + |x| * e * |y| + |x| * (|y| * e) := by linarith
    _ = |x * y| * (2 * e + e * e) := by rw [abs_mul]; ring

/-- A product of two rounded numbers is off by three roundings. -/
theorem abs_binary64_mul_sub_le {x y : ℚ} (hx : (2 : ℚ) ^ (-1021 : ℤ) ≤ |x|) (hy : 1 ≤ |y|) :
    |binary64 (binary64 x * binary64 y) - x * y| ≤ |x * y| * (7 / 2 * epsilon) := by
  have hhalf : (2 : ℚ) ^ (-1021 : ℤ) = 2 * 2 ^ (-1022 : ℤ) := by
    rw [← zpow_one_add₀ (by norm_num)]
    norm_num
  have htiny : (0 : ℚ) < 2 ^ (-1022 : ℤ) := zpow_pos (by norm_num) _
  have hone : (2 : ℚ) ^ (-1022 : ℤ) ≤ 1 := zpow_le_one_of_nonpos₀ (by norm_num) (by norm_num)
  have hexact : 2 * (2 : ℚ) ^ (-1022 : ℤ) ≤ |x * y| := by
    rw [abs_mul,← hhalf]
    exact hx.trans (le_mul_of_one_le_right (abs_nonneg x) hy)
  have hfactors := abs_mul_sub_mul_le (abs_binary64_sub_le_mul (q := x) (by linarith))
    (abs_binary64_sub_le_mul (q := y) (by linarith))
  have hlow : |x * y| - |binary64 x * binary64 y| ≤ |x * y| * (2 * epsilon + epsilon * epsilon) :=
    (abs_sub_abs_le_abs_sub _ _).trans ((abs_sub_comm _ _).le.trans hfactors)
  have hhigh : |binary64 x * binary64 y| - |x * y| ≤ |x * y| * (2 * epsilon + epsilon * epsilon) :=
    (abs_sub_abs_le_abs_sub _ _).trans hfactors
  have hnormal : (2 : ℚ) ^ (-1022 : ℤ) ≤ |binary64 x * binary64 y| := by
    have hsmall : |x * y| * (2 * epsilon + epsilon * epsilon) ≤ |x * y| * (1 / 2) :=
      mul_le_mul_of_nonneg_left (by norm_num [epsilon]) (abs_nonneg _)
    have hdistance := hlow.trans hsmall
    generalize (2 : ℚ) ^ (-1022 : ℤ) = tiny at hexact ⊢
    linarith only [hexact,hdistance]
  have hlast := abs_binary64_sub_le_mul hnormal
  have hbound : |binary64 x * binary64 y| * epsilon ≤
      |x * y| * (1 + (2 * epsilon + epsilon * epsilon)) * epsilon :=
    mul_le_mul_of_nonneg_right (by linarith) (by norm_num [epsilon])
  calc |binary64 (binary64 x * binary64 y) - x * y|
      ≤ |binary64 (binary64 x * binary64 y) - binary64 x * binary64 y| + |binary64 x * binary64 y - x * y| :=
        abs_sub_le _ _ _
    _ ≤ |x * y| * (1 + (2 * epsilon + epsilon * epsilon)) * epsilon +
        |x * y| * (2 * epsilon + epsilon * epsilon) := by linarith
    _ = |x * y| * ((1 + (2 * epsilon + epsilon * epsilon)) * epsilon + (2 * epsilon + epsilon * epsilon)) := by ring
    _ ≤ |x * y| * (7 / 2 * epsilon) := mul_le_mul_of_nonneg_left (by norm_num [epsilon]) (abs_nonneg _)

end Error

end Dodam.Foundation
