import Dodam.Foundation.OrderTest
import Dodam.Foundation.Replace

/-! # Decimal numerals

A numeral is a sign, whole digits and fractional digits; it stands for a
rational. Cutting the fractional digits off at a scale is truncating the scaled
rational toward zero.
-/
namespace Dodam.Foundation

def digitValue (c : Char) : ℕ := c.toNat - 48

def digitsValue (digits : List Char) : ℕ := digits.foldl (fun n c => 10 * n + digitValue c) 0

theorem foldl_digits (digits : List Char) (n : ℕ) :
    digits.foldl (fun n c => 10 * n + digitValue c) n = n * 10 ^ digits.length + digitsValue digits := by
  unfold digitsValue
  induction digits generalizing n with
  | nil => simp
  | cons c digits ih =>
    rw [List.foldl_cons,List.foldl_cons,ih,ih (10 * 0 + digitValue c),List.length_cons]
    ring

theorem digitsValue_append (a b : List Char) :
    digitsValue (a ++ b) = digitsValue a * 10 ^ b.length + digitsValue b := by
  rw [← foldl_digits]
  exact List.foldl_append

theorem digitValue_lt {c : Char} (h : c.isDigit = true) : digitValue c < 10 := by
  have hle : c.toNat ≤ 57 := (Char.isDigit_iff_toNat.mp h).2
  unfold digitValue
  omega

theorem digitsValue_lt {digits : List Char} (h : ∀ c ∈ digits, c.isDigit = true) :
    digitsValue digits < 10 ^ digits.length := by
  induction digits using List.reverseRecOn with
  | nil => simp [digitsValue]
  | append_singleton digits c ih =>
    have hd := ih fun d hd => h d (by simp [hd])
    have hc := digitValue_lt (h c (by simp))
    have hone : digitsValue [c] = digitValue c := by simp [digitsValue]
    rw [digitsValue_append,hone,List.length_append,List.length_singleton,pow_one,pow_succ]
    omega

/-- A decimal numeral: an optional fraction, and a sign. -/
structure Numeral where
  negative : Bool
  whole : List Char
  fractional : List Char
  whole_ne : whole ≠ []
  whole_digits : ∀ c ∈ whole, c.isDigit = true
  fractional_digits : ∀ c ∈ fractional, c.isDigit = true

namespace Numeral

/-- How a numeral is written, between blanks: a fraction may be left out or left empty. -/
def Spells (blank : Char → Bool) (n : Numeral) (text : List Char) : Prop :=
  ∃ pre sign point post, text = pre ++ (sign ++ n.whole ++ point) ++ post ∧
    (∀ c ∈ pre, blank c = true) ∧ (∀ c ∈ post, blank c = true) ∧
    (if n.negative then sign = ['-'] else sign = [] ∨ sign = ['+']) ∧
    (point = '.' :: n.fractional ∨ (point = [] ∧ n.fractional = []))

def magnitude (n : Numeral) : ℚ :=
  digitsValue n.whole + digitsValue n.fractional / 10 ^ n.fractional.length

def value (n : Numeral) : ℚ := if n.negative then -n.magnitude else n.magnitude

theorem value_congr {n n' : Numeral} (hn : n.negative = n'.negative) (hw : n.whole = n'.whole)
    (hf : n.fractional = n'.fractional) : n.value = n'.value := by
  unfold value magnitude
  rw [hn,hw,hf]

def kept (n : Numeral) (scale : ℕ) : ℕ :=
  digitsValue n.whole * 10 ^ scale +
    digitsValue (n.fractional.take scale) * 10 ^ (scale - (n.fractional.take scale).length)

theorem floor_magnitude (n : Numeral) (scale : ℕ) : ⌊n.magnitude * 10 ^ scale⌋ = n.kept scale := by
  unfold magnitude kept
  rw [Int.floor_eq_iff,add_mul]
  rcases le_or_gt n.fractional.length scale with h | h
  · rw [List.take_of_length_le h]
    obtain ⟨d,rfl⟩ := Nat.exists_eq_add_of_le h
    have hexact : (digitsValue n.fractional : ℚ) / 10 ^ n.fractional.length *
        10 ^ (n.fractional.length + d) = digitsValue n.fractional * 10 ^ d := by
      rw [pow_add]
      field_simp
    rw [hexact,Nat.add_sub_cancel_left]
    push_cast
    constructor <;> linarith
  · have hlen : (n.fractional.take scale).length = scale := by
      rw [List.length_take]
      omega
    have hsplit : digitsValue n.fractional =
        digitsValue (n.fractional.take scale) * 10 ^ (n.fractional.drop scale).length +
          digitsValue (n.fractional.drop scale) := by
      rw [← digitsValue_append,List.take_append_drop]
    have hlt : digitsValue (n.fractional.drop scale) < 10 ^ (n.fractional.drop scale).length :=
      digitsValue_lt fun c hc => n.fractional_digits c (List.mem_of_mem_drop hc)
    have hdrop : n.fractional.length = (n.fractional.drop scale).length + scale := by
      rw [List.length_drop]
      omega
    have hpos : (0 : ℚ) < 10 ^ (n.fractional.drop scale).length := by positivity
    have hexact : (digitsValue n.fractional : ℚ) / 10 ^ n.fractional.length * 10 ^ scale =
        digitsValue (n.fractional.take scale) +
          digitsValue (n.fractional.drop scale) / 10 ^ (n.fractional.drop scale).length := by
      rw [hsplit,hdrop,pow_add]
      push_cast
      field_simp
    have hrest : (digitsValue (n.fractional.drop scale) : ℚ) /
        10 ^ (n.fractional.drop scale).length < 1 := by
      rw [div_lt_one hpos]
      exact_mod_cast hlt
    have hnonneg : (0 : ℚ) ≤ digitsValue (n.fractional.drop scale) /
        10 ^ (n.fractional.drop scale).length := by positivity
    rw [hexact,hlen,Nat.sub_self]
    push_cast
    constructor <;> linarith

theorem towardZero_value (n : Numeral) (scale : ℕ) :
    towardZero (n.value * 10 ^ scale) = if n.negative then -(n.kept scale : ℤ) else n.kept scale := by
  have hpos : 0 ≤ n.magnitude * 10 ^ scale := by
    unfold magnitude
    positivity
  have hzero : towardZero (n.magnitude * 10 ^ scale) = n.kept scale := by
    rw [← floor_magnitude]
    exact if_pos hpos
  unfold value
  split_ifs
  · rw [neg_mul,towardZero_neg,hzero]
  · exact hzero

end Numeral
end Dodam.Foundation
