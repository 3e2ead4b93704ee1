import Mathlib.Algebra.BigOperators.Group.Multiset.Basic
import Mathlib.Tactic.Linarith

/-! # Fixed-width integer arithmetic on unbounded integers

A machine integer is an integer inside its range.
-/
namespace Dodam.Foundation

/-- The values of the signed type of `w` bits. -/
def InSigned (w : ℕ) (x : ℤ) : Prop := -2 ^ (w - 1) ≤ x ∧ x < 2 ^ (w - 1)

instance (w : ℕ) (x : ℤ) : Decidable (InSigned w x) := inferInstanceAs (Decidable (_ ∧ _))

/-- A checked operation whose exact result is `x`. -/
def checkedSigned (w : ℕ) (x : ℤ) : Option ℤ := if InSigned w x then some x else none

/-- A wrapping operation whose exact result is `x`. -/
def wrapSigned (w : ℕ) (x : ℤ) : ℤ := Int.bmod x (2 ^ w)

/-- A saturating operation whose exact result is `x`. -/
def saturateSigned (w : ℕ) (x : ℤ) : ℤ := max (-2 ^ (w - 1)) (min x (2 ^ (w - 1) - 1))

/-- Conversion of a signed value to the unsigned type of `w` bits. -/
def asUnsigned (w : ℕ) (x : ℤ) : ℕ := (x % 2 ^ w).toNat

/-- The largest value of the unsigned type of `w` bits. -/
def maxUnsigned (w : ℕ) : ℕ := 2 ^ w - 1

variable {w : ℕ} {x y : ℤ}

theorem checkedSigned_eq_some : checkedSigned w x = some y ↔ InSigned w x ∧ x = y := by
  unfold checkedSigned
  split <;> simp_all

theorem checkedSigned_of_mem (h : InSigned w x) : checkedSigned w x = some x :=
  if_pos h

theorem inSigned_of_le (hx : 0 ≤ x) (hxy : x ≤ y) (hy : InSigned w y) : InSigned w x :=
  ⟨(neg_nonpos.mpr (pow_nonneg (by decide) _)).trans hx,hxy.trans_lt hy.2⟩

theorem asUnsigned_of_nonneg (h0 : 0 ≤ x) (h : x < 2 ^ w) : asUnsigned w x = x.toNat := by
  rw [asUnsigned,Int.emod_eq_of_lt h0 h]

theorem asUnsigned_of_neg (h0 : x < 0) (h : -2 ^ w ≤ x) : asUnsigned w x = (x + 2 ^ w).toNat := by
  have he : x % 2 ^ w = x + 2 ^ w := by
    rw [← Int.add_emod_right,Int.emod_eq_of_lt] <;> linarith
  rw [asUnsigned,he]

theorem wrapSigned_of_mem (hw : 0 < w) (h : InSigned w x) : wrapSigned w x = x := by
  obtain ⟨k,rfl⟩ : ∃ k, w = k + 1 := ⟨w - 1,by omega⟩
  obtain ⟨hl,hu⟩ := h
  simp only [Nat.add_sub_cancel] at hl hu
  rw [wrapSigned,Int.bmod_eq_of_le_mul_two] <;> push_cast <;> rw [pow_succ] <;> linarith

theorem saturateSigned_of_mem (h : InSigned w x) : saturateSigned w x = x := by
  obtain ⟨hl,hu⟩ := h
  rw [saturateSigned,min_eq_left (by omega),max_eq_right hl]

end Dodam.Foundation

/-! ## Counts and sums by additions that may round

A machine adds up the values of some rows in some order and grouping, and an
addition whose exact result leaves the range wraps or saturates. Whatever it
does there, a total is exact when no part of the values has a sum out of range.
-/
namespace Dodam.Foundation

/-- The values of the unsigned type of `w` bits. -/
def InUnsigned (w : ℕ) (x : ℕ) : Prop := x < 2 ^ w

instance (w x : ℕ) : Decidable (InUnsigned w x) := inferInstanceAs (Decidable (x < 2 ^ w))

/-- An operation that is exact on results in range. -/
def Rounds (w : ℕ) (round : ℤ → ℤ) : Prop := ∀ x, InSigned w x → round x = x

def RoundsUnsigned (w : ℕ) (round : ℕ → ℕ) : Prop := ∀ x, InUnsigned w x → round x = x

/-- A wrapping unsigned operation whose exact result is `x`. -/
def wrapUnsigned (w x : ℕ) : ℕ := x % 2 ^ w

/-- A saturating unsigned operation whose exact result is `x`. -/
def saturateUnsigned (w x : ℕ) : ℕ := min x (maxUnsigned w)

theorem rounds_wrap {w : ℕ} (hw : 0 < w) : Rounds w (wrapSigned w) :=
  fun _ h => wrapSigned_of_mem hw h

theorem rounds_saturate (w : ℕ) : Rounds w (saturateSigned w) :=
  fun _ h => saturateSigned_of_mem h

theorem rounds_wrapUnsigned (w : ℕ) : RoundsUnsigned w (wrapUnsigned w) :=
  fun _ h => Nat.mod_eq_of_lt h

theorem rounds_saturateUnsigned (w : ℕ) : RoundsUnsigned w (saturateUnsigned w) := by
  intro x h
  unfold InUnsigned at h
  rw [saturateUnsigned,maxUnsigned,min_eq_left (by omega)]

def PartsFit (w : ℕ) (values : Multiset ℤ) : Prop := ∀ part ≤ values, InSigned w part.sum

theorem PartsFit.mono {w : ℕ} {s t : Multiset ℤ} (h : PartsFit w t) (hle : s ≤ t) : PartsFit w s :=
  fun part hpart => h part (hpart.trans hle)

/-- A total that additions with rounding make out of the values, each used once. -/
inductive AddsUp (w : ℕ) : Multiset ℤ → ℤ → Prop
  | zero : AddsUp w 0 0
  | value (v : ℤ) : AddsUp w {v} v
  | add {s t : Multiset ℤ} {a b : ℤ} {round : ℤ → ℤ} (hround : Rounds w round) (hs : AddsUp w s a)
      (ht : AddsUp w t b) : AddsUp w (s + t) (round (a + b))

theorem AddsUp.eq_sum {w : ℕ} {values : Multiset ℤ} {total : ℤ} (h : AddsUp w values total)
    (hfit : PartsFit w values) : total = values.sum := by
  induction h with
  | zero => rfl
  | value v => exact (Multiset.sum_singleton v).symm
  | add hround _ _ ihs iht =>
    rw [ihs (hfit.mono (Multiset.le_add_right _ _)),iht (hfit.mono (Multiset.le_add_left _ _)),
      ← Multiset.sum_add,hround _ (hfit _ le_rfl)]

/-- What a group knows of its rows: their number, the sum of their values, and the number of values. -/
structure Tally where
  count : ℕ
  sum : ℤ
  sumCount : ℕ
deriving DecidableEq

namespace Tally

def values (rows : Multiset (Option ℤ)) : Multiset ℤ := rows.filterMap id

@[simp] theorem values_zero : values 0 = 0 := rfl

@[simp] theorem values_add (r s : Multiset (Option ℤ)) : values (r + s) = values r + values s :=
  Multiset.filterMap_add ..

@[simp] theorem values_singleton_some (v : ℤ) : values {some v} = {v} := rfl

@[simp] theorem values_singleton_none : values {none} = 0 := rfl

theorem card_values_le (rows : Multiset (Option ℤ)) : (values rows).card ≤ rows.card := by
  induction rows using Multiset.induction_on with
  | empty => exact le_rfl
  | cons a rows ih =>
    rw [← Multiset.singleton_add,values_add,Multiset.card_add,Multiset.card_add]
    refine Nat.add_le_add ?_ ih
    cases a with
    | none => exact Nat.zero_le _
    | some v => exact le_rfl

/-- The tally counts the rows and adds up their values, as long as 64 bits can count them. -/
def Counts (rows : Multiset (Option ℤ)) (t : Tally) : Prop :=
  InUnsigned 64 rows.card →
    t.count = rows.card ∧ t.sumCount = (values rows).card ∧ AddsUp 64 (values rows) t.sum

def zero : Tally := ⟨0,0,0⟩

theorem counts_zero : Counts 0 zero := fun _ => ⟨rfl,rfl,.zero⟩

theorem counts_value (v : ℤ) : Counts {some v} ⟨1,v,1⟩ := fun _ => ⟨rfl,rfl,.value v⟩

variable {r s rows : Multiset (Option ℤ)} {t u : Tally}

theorem Counts.add {f g : ℕ → ℕ} {round : ℤ → ℤ}
    (hf : RoundsUnsigned 64 f) (hround : Rounds 64 round) (hg : RoundsUnsigned 64 g)
    (ht : Counts r t) (hu : Counts s u) :
    Counts (r + s) ⟨f (t.count + u.count),round (t.sum + u.sum),g (t.sumCount + u.sumCount)⟩ := by
  intro hfit
  unfold InUnsigned at hfit
  rw [Multiset.card_add] at hfit
  obtain ⟨htc,htn,hts⟩ := ht (by unfold InUnsigned; omega)
  obtain ⟨huc,hun,hus⟩ := hu (by unfold InUnsigned; omega)
  have hr := card_values_le r
  have hs := card_values_le s
  rw [htc,huc,htn,hun,values_add,Multiset.card_add,Multiset.card_add]
  exact ⟨hf _ hfit,hg _ (by unfold InUnsigned; omega),.add hround hts hus⟩

theorem Counts.addNull {f : ℕ → ℕ} (hf : RoundsUnsigned 64 f)
    (ht : Counts r t) : Counts (r + {none}) ⟨f (t.count + 1),t.sum,t.sumCount⟩ := by
  intro hfit
  unfold InUnsigned at hfit
  rw [Multiset.card_add,Multiset.card_singleton] at hfit
  obtain ⟨htc,htn,hts⟩ := ht (by unfold InUnsigned; omega)
  rw [values_add,values_singleton_none,add_zero,htc,Multiset.card_add,Multiset.card_singleton]
  exact ⟨hf _ hfit,htn,hts⟩

/-- One row: a plain count, and an addition with the given rounding. -/
def addRow (round : ℤ → ℤ) (t : Tally) : Option ℤ → Tally
  | none => ⟨wrapUnsigned 64 (t.count + 1),t.sum,t.sumCount⟩
  | some v => ⟨wrapUnsigned 64 (t.count + 1),round (t.sum + v),wrapUnsigned 64 (t.sumCount + 1)⟩

/-- Rows already counted and added up; every addition saturates. -/
def addMany (t : Tally) (count : ℕ) (sum : ℤ) (sumCount : ℕ) : Tally :=
  ⟨saturateUnsigned 64 (t.count + count),saturateSigned 64 (t.sum + sum),
    saturateUnsigned 64 (t.sumCount + sumCount)⟩

/-- The finished row of a partial aggregate: its count and its sum, which is one more value. -/
def addPartial (round : ℤ → ℤ) (t : Tally) (count : ℕ) : Option ℤ → Tally
  | none => ⟨saturateUnsigned 64 (t.count + count),t.sum,t.sumCount⟩
  | some v => ⟨saturateUnsigned 64 (t.count + count),round (t.sum + v),wrapUnsigned 64 (t.sumCount + 1)⟩

def result (t : Tally) : Option ℤ := if t.sumCount = 0 then none else some t.sum

theorem Counts.addRow {round : ℤ → ℤ} (hround : Rounds 64 round)
    (h : Counts rows t) (v : Option ℤ) : Counts (rows + {v}) (t.addRow round v) := by
  cases v with
  | none => exact h.addNull (rounds_wrapUnsigned 64)
  | some v => exact h.add (rounds_wrapUnsigned 64) hround (rounds_wrapUnsigned 64) (counts_value v)

theorem Counts.addMany (ht : Counts r t) (hu : Counts s u) :
    Counts (r + s) (t.addMany u.count u.sum u.sumCount) :=
  ht.add (rounds_saturateUnsigned 64) (rounds_saturate 64) (rounds_saturateUnsigned 64) hu

theorem Counts.eq (h : Counts rows t)
    (hcount : InUnsigned 64 rows.card) (hfit : PartsFit 64 (values rows)) :
    t = ⟨rows.card,(values rows).sum,(values rows).card⟩ := by
  obtain ⟨hc,hn,hs⟩ := h hcount
  cases t
  simp only at hc hn hs
  rw [hc,hn,hs.eq_sum hfit]

end Tally
end Dodam.Foundation
