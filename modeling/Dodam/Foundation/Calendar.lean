import Mathlib.Algebra.BigOperators.Intervals
import Mathlib.Algebra.Order.BigOperators.Group.Finset
import Mathlib.Data.Prod.Lex

/-! # The Gregorian calendar

The dates of the calendar, carried on to every year before and after, in their order and one
after the other.
-/
namespace Dodam.Foundation

def IsLeap (year : ℤ) : Prop := (4 ∣ year ∧ ¬100 ∣ year) ∨ 400 ∣ year

instance : DecidablePred IsLeap := fun year => inferInstanceAs (Decidable ((4 ∣ year ∧ ¬100 ∣ year) ∨ 400 ∣ year))

def monthLength (year : ℤ) (month : ℕ) : ℕ :=
  if month = 2 then if IsLeap year then 29 else 28 else if month ∈ [4,6,9,11] then 30 else 31

def yearLength (year : ℤ) : ℕ := if IsLeap year then 366 else 365

def daysBefore (year : ℤ) (month : ℕ) : ℕ := ∑ m ∈ Finset.Ico 1 month, monthLength year m

/-- The days from the beginning of the year 1 to that of another. -/
def yearStart (year : ℤ) : ℤ := 365 * (year - 1) + (year - 1) / 4 - (year - 1) / 100 + (year - 1) / 400

@[ext] structure CalendarDate where
  year : ℤ
  month : ℕ
  day : ℕ
  month_mem : 1 ≤ month ∧ month ≤ 12
  day_mem : 1 ≤ day ∧ day ≤ monthLength year month
deriving DecidableEq

section Lengths
variable {year : ℤ}

theorem monthLength_pos (year : ℤ) (month : ℕ) : 1 ≤ monthLength year month := by
  unfold monthLength
  split_ifs <;> decide

theorem daysBefore_succ {month : ℕ} (h : 1 ≤ month) :
    daysBefore year (month + 1) = daysBefore year month + monthLength year month :=
  Finset.sum_Ico_succ_top h _

theorem daysBefore_mono {month month' : ℕ} (h : month ≤ month') : daysBefore year month ≤ daysBefore year month' :=
  Finset.sum_le_sum_of_subset (Finset.Ico_subset_Ico_right h)

theorem monthLength_eq (year : ℤ) :
    monthLength year = fun month => if month = 2 then if decide (IsLeap year) then 29 else 28
      else if month ∈ [4,6,9,11] then 30 else 31 := by
  funext month
  simp only [monthLength,decide_eq_true_eq]

theorem daysBefore_end (year : ℤ) : daysBefore year 13 = yearLength year := by
  rw [daysBefore,yearLength,monthLength_eq]
  by_cases h : IsLeap year
  · rw [decide_eq_true h,if_pos h]
    rfl
  · rw [decide_eq_false h,if_neg h]
    rfl

theorem yearStart_succ (year : ℤ) : yearStart (year + 1) = yearStart year + yearLength year := by
  have h4 : year / 4 = (year - 1) / 4 + if 4 ∣ year then 1 else 0 := by split_ifs <;> omega
  have h100 : year / 100 = (year - 1) / 100 + if 100 ∣ year then 1 else 0 := by split_ifs <;> omega
  have h400 : year / 400 = (year - 1) / 400 + if 400 ∣ year then 1 else 0 := by split_ifs <;> omega
  have hleap : (yearLength year : ℤ) =
      365 + (if 4 ∣ year then 1 else 0) - (if 100 ∣ year then 1 else 0) + if 400 ∣ year then 1 else 0 := by
    clear h4 h100 h400
    unfold yearLength
    by_cases h : IsLeap year
    · rw [if_pos h]
      unfold IsLeap at h
      split_ifs <;> omega
    · rw [if_neg h]
      unfold IsLeap at h
      split_ifs <;> omega
  unfold yearStart
  rw [add_sub_cancel_right,h4,h100,h400,hleap]
  clear h4 h100 h400 hleap
  generalize (year - 1) / 4 = a,(year - 1) / 100 = b,(year - 1) / 400 = c
  omega

theorem yearStart_le {year' : ℤ} (h : year < year') : yearStart year + yearLength year ≤ yearStart year' := by
  rw [← yearStart_succ]
  obtain ⟨n,rfl⟩ := Int.le.dest (Int.add_one_le_iff.mpr h)
  clear h
  induction n with
  | zero => simp
  | succ n ih =>
    have hsucc : year + 1 + ((n + 1 : ℕ) : ℤ) = year + 1 + n + 1 := by omega
    have hnext := yearStart_succ (year + 1 + n)
    rw [hsucc]
    omega

end Lengths

namespace CalendarDate

/-- The days since the first of January 1970. -/
def dayNumber (date : CalendarDate) : ℤ :=
  yearStart date.year + daysBefore date.year date.month + (date.day - 1) - 719162

def epoch : CalendarDate := ⟨1970,1,1,by decide,by decide⟩

def next (date : CalendarDate) : CalendarDate :=
  if hday : date.day < monthLength date.year date.month then
    ⟨date.year,date.month,date.day + 1,date.month_mem,by omega,hday⟩
  else if hmonth : date.month < 12 then
    ⟨date.year,date.month + 1,1,by omega,le_rfl,monthLength_pos _ _⟩
  else ⟨date.year + 1,1,1,by decide,le_rfl,monthLength_pos _ _⟩

def key (date : CalendarDate) : ℤ ×ₗ ℕ ×ₗ ℕ := toLex (date.year,toLex (date.month,date.day))

theorem key_injective : Function.Injective key := by
  intro date date' h
  simp only [key,EmbeddingLike.apply_eq_iff_eq,Prod.mk.injEq] at h
  exact CalendarDate.ext h.1 h.2.1 h.2.2

instance : LinearOrder CalendarDate := LinearOrder.lift' key key_injective

theorem lt_iff {date date' : CalendarDate} : date < date' ↔ date.year < date'.year ∨
    date.year = date'.year ∧ (date.month < date'.month ∨ date.month = date'.month ∧ date.day < date'.day) := by
  change key date < key date' ↔ _
  simp only [key,Prod.Lex.toLex_lt_toLex]

theorem dayNumber_mem (date : CalendarDate) : yearStart date.year - 719162 ≤ date.dayNumber ∧
    date.dayNumber < yearStart date.year + yearLength date.year - 719162 := by
  obtain ⟨hlow,hhigh⟩ := date.month_mem
  obtain ⟨hfirst,hlast⟩ := date.day_mem
  have hstep : daysBefore date.year (date.month + 1) = _ := daysBefore_succ hlow
  have hend : daysBefore date.year (date.month + 1) ≤ daysBefore date.year 13 := daysBefore_mono (by omega)
  rw [daysBefore_end] at hend
  unfold dayNumber
  omega

theorem dayNumber_strictMono {date date' : CalendarDate} (h : date < date') : date.dayNumber < date'.dayNumber := by
  obtain ⟨hfirst,hlast⟩ := date.day_mem
  obtain ⟨hfirst',hlast'⟩ := date'.day_mem
  rcases lt_iff.mp h with hyear | ⟨hyear,hmonth | ⟨hmonth,hday⟩⟩
  · have hle := yearStart_le hyear
    have hbefore := date.dayNumber_mem
    have hafter := date'.dayNumber_mem
    omega
  · have hstep : daysBefore date.year (date.month + 1) = _ := daysBefore_succ date.month_mem.1
    have hle : daysBefore date.year (date.month + 1) ≤ daysBefore date.year date'.month := daysBefore_mono hmonth
    unfold dayNumber
    rw [← hyear]
    omega
  · unfold dayNumber
    rw [← hyear,← hmonth]
    omega

theorem dayNumber_next (date : CalendarDate) : date.next.dayNumber = date.dayNumber + 1 := by
  have hstep : daysBefore date.year (date.month + 1) = _ := daysBefore_succ date.month_mem.1
  obtain ⟨hlow,hhigh⟩ := date.month_mem
  obtain ⟨hfirst,hlast⟩ := date.day_mem
  unfold next
  split_ifs with hday hmonth
  · simp only [dayNumber]
    omega
  · simp only [dayNumber]
    omega
  · have hdecember : date.month = 12 := by omega
    have hend := daysBefore_end date.year
    have hyear := yearStart_succ date.year
    have hjanuary : daysBefore (date.year + 1) 1 = 0 := rfl
    simp only [hdecember,Nat.reduceAdd] at hstep hday hlast
    simp only [dayNumber,hdecember,hjanuary]
    omega

end CalendarDate
end Dodam.Foundation
