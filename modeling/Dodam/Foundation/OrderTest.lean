import Mathlib.Data.Rat.Floor
import Mathlib.Tactic.Positivity

/-! # The six order tests, and truncation

A test against a number that has been truncated to an integer is the test
against the number itself, except where the tested value is that integer and the
number lies strictly beyond it on the side the test looks at.
-/
namespace Dodam.Foundation

inductive OrderTest
  | eq
  | notEq
  | lt
  | ltEq
  | gt
  | gtEq
deriving DecidableEq, Repr

namespace OrderTest
variable {K : Type*} [LinearOrder K]

def Holds (op : OrderTest) (value bound : K) : Prop :=
  match op with
  | eq => value = bound
  | notEq => value ≠ bound
  | lt => value < bound
  | ltEq => value ≤ bound
  | gt => bound < value
  | gtEq => bound ≤ value

instance (op : OrderTest) (value bound : K) : Decidable (op.Holds value bound) :=
  match op with
  | eq => inferInstanceAs (Decidable (value = bound))
  | notEq => inferInstanceAs (Decidable (value ≠ bound))
  | lt => inferInstanceAs (Decidable (value < bound))
  | ltEq => inferInstanceAs (Decidable (value ≤ bound))
  | gt => inferInstanceAs (Decidable (bound < value))
  | gtEq => inferInstanceAs (Decidable (bound ≤ value))

theorem holds_map {L : Type*} [LinearOrder L] {f : K → L} (hf : StrictMono f) (op : OrderTest)
    (value bound : K) : op.Holds (f value) (f bound) ↔ op.Holds value bound := by
  cases op
  · exact hf.injective.eq_iff
  · exact hf.injective.ne_iff
  · exact hf.lt_iff_lt
  · exact hf.le_iff_le
  · exact hf.lt_iff_lt
  · exact hf.le_iff_le

theorem holds_of_lt {value bound : K} (h : value < bound) (op : OrderTest) :
    op.Holds value bound ↔ op = notEq ∨ op = lt ∨ op = ltEq := by
  cases op <;> simp [Holds,h,h.ne,h.le,h.not_gt,h.not_ge]

theorem holds_of_gt {value bound : K} (h : bound < value) (op : OrderTest) :
    op.Holds value bound ↔ op = notEq ∨ op = gt ∨ op = gtEq := by
  cases op <;> simp [Holds,h,h.ne',h.le,h.not_gt,h.not_ge]

theorem holds_self (value : K) (op : OrderTest) :
    op.Holds value value ↔ op = eq ∨ op = ltEq ∨ op = gtEq := by
  cases op <;> simp [Holds]

end OrderTest

open OrderTest

section Truncation
variable {K : Type*} [Field K] [LinearOrder K] [IsStrictOrderedRing K] [FloorRing K]

def towardZero (q : K) : ℤ := if 0 ≤ q then ⌊q⌋ else ⌈q⌉

@[simp] theorem towardZero_intCast (n : ℤ) : towardZero (n : K) = n := by
  unfold towardZero
  split_ifs
  · exact Int.floor_intCast n
  · exact Int.ceil_intCast n

theorem towardZero_neg (q : K) : towardZero (-q) = -towardZero q := by
  unfold towardZero
  by_cases h : 0 ≤ q
  · rw [if_pos h]
    split_ifs with hn
    · have hz : q = 0 := le_antisymm (neg_nonneg.mp hn) h
      simp [hz]
    · exact Int.ceil_neg
  · rw [if_neg h,if_pos (neg_nonneg.mpr (not_le.mp h).le)]
    exact Int.floor_neg

theorem towardZero_cases (q : K) :
    (towardZero q : K) = q ∨ (0 < q ∧ (towardZero q : K) < q ∧ q < towardZero q + 1) ∨
      (q < 0 ∧ (towardZero q : K) - 1 < q ∧ q < towardZero q) := by
  unfold towardZero
  by_cases h : 0 ≤ q
  · rw [if_pos h]
    rcases (Int.floor_le q).eq_or_lt with he | hlt
    · exact Or.inl he
    · refine Or.inr (Or.inl ⟨lt_of_le_of_ne h ?_,hlt,Int.lt_floor_add_one q⟩)
      rintro rfl
      simp at hlt
  · rw [if_neg h]
    rcases (Int.le_ceil q).eq_or_lt with he | hlt
    · exact Or.inl he.symm
    · exact Or.inr (Or.inr ⟨not_le.mp h,by linarith [Int.ceil_lt_add_one q],hlt⟩)

/-- The tests that truncation leaves exact at a value: the number is an integer, or the value is
not its truncation, or the test looks at the side on which nothing was cut off. -/
def ExactAt (op : OrderTest) (value : ℤ) (q : K) : Prop :=
  (towardZero q : K) = q ∨ value ≠ towardZero q ∨ (0 < q ∧ (op = .ltEq ∨ op = .gt)) ∨
    (q < 0 ∧ (op = .lt ∨ op = .gtEq))

theorem holds_towardZero_of_ne {value : ℤ} {q : K} (h : value ≠ towardZero q) (op : OrderTest) :
    op.Holds value (towardZero q) ↔ op.Holds (value : K) q := by
  have hnear : (towardZero q : K) - 1 < q ∧ q < towardZero q + 1 := by
    rcases towardZero_cases q with he | ⟨-,h1,h2⟩ | ⟨-,h1,h2⟩
    · rw [he]
      constructor <;> linarith
    · constructor <;> linarith
    · constructor <;> linarith
  rcases lt_or_gt_of_ne h with hlt | hgt
  · have hle : (value : K) ≤ towardZero q - 1 := by exact_mod_cast Int.le_sub_one_of_lt hlt
    rw [holds_of_lt hlt,holds_of_lt (show (value : K) < q by linarith)]
  · have hge : (towardZero q : K) + 1 ≤ value := by exact_mod_cast Int.add_one_le_of_lt hgt
    rw [holds_of_gt hgt,holds_of_gt (show q < (value : K) by linarith)]

theorem holds_towardZero_iff (op : OrderTest) (value : ℤ) (q : K) :
    (op.Holds value (towardZero q) ↔ op.Holds (value : K) q) ↔ ExactAt op value q := by
  by_cases hne : value ≠ towardZero q
  · exact iff_of_true (holds_towardZero_of_ne hne op) (Or.inr (Or.inl hne))
  · have hv : value = towardZero q := not_not.mp hne
    rcases towardZero_cases q with he | ⟨hpos,hlt,-⟩ | ⟨hneg,-,hlt⟩
    · refine iff_of_true ?_ (Or.inl he)
      rw [hv,he,holds_self,holds_self]
    · unfold ExactAt
      rw [hv,holds_self,holds_of_lt hlt]
      simp only [hlt.ne,hpos,hpos.not_gt,ne_eq,not_true,true_and,false_and,or_false,false_or]
      cases op <;> simp
    · unfold ExactAt
      rw [hv,holds_self,holds_of_gt hlt]
      simp only [hlt.ne',hneg,hneg.not_gt,ne_eq,not_true,true_and,false_and,false_or]
      cases op <;> simp

theorem towardZero_div (a : ℤ) (b : ℕ) : towardZero ((a : ℚ) / b) = a.tdiv b := by
  have hnonneg : ∀ n : ℕ, towardZero (((n : ℤ) : ℚ) / b) = (n : ℤ).tdiv b := by
    intro n
    rw [Int.tdiv_eq_ediv_of_nonneg (Int.natCast_nonneg n),← Rat.floor_intCast_div_natCast]
    exact if_pos (by positivity)
  obtain ⟨n,rfl | rfl⟩ := a.eq_nat_or_neg
  · exact hnonneg n
  · rw [Int.cast_neg,neg_div,towardZero_neg,hnonneg,Int.neg_tdiv]

end Truncation
end Dodam.Foundation
