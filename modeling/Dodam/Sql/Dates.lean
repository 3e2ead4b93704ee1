import Mathlib.Tactic.IntervalCases
import Dodam.Execution.Filter.Reading
import Dodam.Foundation.Calendar

/-! # Civil dates

Years, months and days of the proleptic Gregorian calendar as the day counts
that dates are stored in, the calendar arithmetic of intervals on them, and
their texts.
-/
namespace Dodam.Sql
open Foundation Execution

abbrev Civil := ℤ × ℕ × ℕ

def isLeapYear (year : ℤ) : Bool := (year.tmod 4 = 0 && year.tmod 100 ≠ 0) || year.tmod 400 = 0

def daysInMonth (year : ℤ) (month : ℕ) : ℕ :=
  if month ∈ [1,3,5,7,8,10,12] then 31
  else if month ∈ [4,6,9,11] then 30
  else if month = 2 then if isLeapYear year then 29 else 28
  else 0

/-- The error of a date text that does not parse. -/
def invalidDate {α : Type*} (value : String) : Result α := unsupportedSql s!"invalid DATE literal: {value}"

def dateOverflow {α : Type*} : Result α := unsupportedSql "DATE arithmetic overflow"

def parseYmd (value : String) : Result Civil :=
  let error {α : Type} : Result α := invalidDate value
  match splitAll '-' value.toList with
  | year :: rest => do
    let year ← okOr (parseSigned 32 year) error
    let month ← okOr (rest.head?.bind (parseUnsigned 32)) error
    let day ← okOr (rest.tail.head?.bind (parseUnsigned 32)) error
    if rest.tail.tail ≠ [] ∨ ¬ (1 ≤ month ∧ month ≤ 12) ∨ day = 0 ∨ daysInMonth year month < day then error
    else return (year,month,day)
  | [] => error

def addMonths (date : Civil) (months : ℤ) : Result Civil := do
  let (year,month,day) := date
  let monthIndex := wrapSigned 64 (year * 12 + (month - 1) + months)
  let year ← okOr (checkedSigned 32 (monthIndex / 12)) dateOverflow
  let month := (monthIndex % 12).toNat + 1
  return (year,month,min day (daysInMonth year month))

/-- The day count is exact: a date has a year of 32 bits. -/
def daysFromCivil (date : Civil) : ℤ := Execution.daysFromCivil date.1 date.2.1 date.2.2

def civilFromDays (days : ℤ) : Result Civil :=
  let days := wrapSigned 64 (days + 719468)
  let era := (if 0 ≤ days then days else wrapSigned 64 (days - 146096)).tdiv 146097
  let doe := days - era * 146097
  let yoe := (doe - doe.tdiv 1460 + doe.tdiv 36524 - doe.tdiv 146096).tdiv 365
  let year := yoe + era * 400
  let doy := doe - (365 * yoe + yoe.tdiv 4 - yoe.tdiv 100)
  let mp := (5 * doy + 2).tdiv 153
  let day := doy - (153 * mp + 2).tdiv 5 + 1
  let month := mp + if mp < 10 then 3 else -9
  let year := year + if month ≤ 2 then 1 else 0
  let unsigned (x : ℤ) : Result ℕ := if 0 ≤ x ∧ x ≤ maxUnsigned 32 then .ok x.toNat else dateOverflow
  do return (← okOr (checkedSigned 32 year) dateOverflow,← unsigned month,← unsigned day)

def yearFromDays (days : ℤ) : Result ℤ :=
  let days := wrapSigned 64 (days + 719468)
  let era := (if 0 ≤ days then days else wrapSigned 64 (days - 146096)).tdiv 146097
  let doe := days - era * 146097
  let yoe := (doe - doe.tdiv 1460 + doe.tdiv 36524 - doe.tdiv 146096).tdiv 365
  let year := yoe + era * 400
  let doy := doe - (365 * yoe + yoe.tdiv 4 - yoe.tdiv 100)
  let mp := (5 * doy + 2).tdiv 153
  let month := mp + if mp < 10 then 3 else -9
  okOr (checkedSigned 32 (year + if month ≤ 2 then 1 else 0)) dateOverflow

/-- A number with leading zeros, as wide as `width` with its sign. -/
def zeroPadded (width : ℕ) (n : ℤ) : String :=
  let digits := (toString n.natAbs).toList
  if n < 0 then String.ofList ('-' :: (List.replicate (width - 1 - digits.length) '0' ++ digits))
  else String.ofList (List.replicate (width - digits.length) '0' ++ digits)

/-- A date as `YYYY-MM-DD`. -/
def dateText (date : Civil) : String :=
  zeroPadded 4 date.1 ++ "-" ++ zeroPadded 2 date.2.1 ++ "-" ++ zeroPadded 2 date.2.2

end Dodam.Sql

/-! ## Dates read back

A day count becomes a civil date and its text, and the text is read back as a
day count. Every count of 64 bits that is a date of 32-bit years survives the
calendar; the text survives from the year 0 on, since a minus sign is read as a
separator.
-/
namespace Dodam.Sql
open Foundation Execution

section Digits

theorem digitsValue_eq (digits : List Char) : digitsValue digits = Nat.ofDigitChars 10 digits 0 := rfl

theorem zeroPadded_natCast (width n : ℕ) :
    (zeroPadded width n).toList =
      List.replicate (width - (Nat.toDigits 10 n).length) '0' ++ Nat.toDigits 10 n := by
  have hsign : ¬ (n : ℤ) < 0 := by omega
  have htext : (toString (n : ℤ).natAbs).toList = Nat.toDigits 10 n := by simp
  unfold zeroPadded
  rw [if_neg hsign,htext]
  exact String.toList_ofList

variable {width n w : ℕ}

theorem isDigit_zeroPadded {c : Char} (h : c ∈ (zeroPadded width n).toList) : c.isDigit = true := by
  rw [zeroPadded_natCast,List.mem_append] at h
  rcases h with h | h
  · rw [List.eq_of_mem_replicate h]
    decide
  · exact Nat.isDigit_of_mem_toDigits (by decide) (by decide) h

theorem zeroPadded_ne_nil (width n : ℕ) : (zeroPadded width n).toList ≠ [] := by
  rw [zeroPadded_natCast]
  exact List.append_ne_nil_of_right_ne_nil _ Nat.toDigits_ne_nil

theorem digitsValue_zeroPadded (width n : ℕ) : digitsValue (zeroPadded width n).toList = n := by
  rw [zeroPadded_natCast,digitsValue_eq,Nat.ofDigitChars_append,Nat.ofDigitChars_replicate_zero,
    Nat.mul_zero,Nat.ofDigitChars_ten_toDigits]

theorem parseSigned_zeroPadded (h : InSigned w n) :
    parseSigned w (zeroPadded width n).toList = some (n : ℤ) := by
  rw [parseSigned_digits w (zeroPadded_ne_nil width n) fun _ => isDigit_zeroPadded,digitsValue_zeroPadded]
  exact checkedSigned_of_mem h

theorem parseUnsigned_zeroPadded (h : n ≤ maxUnsigned w) :
    parseUnsigned w (zeroPadded width n).toList = some n := by
  have hdigits : parseDigits (zeroPadded width n).toList = some n := by
    rw [parseDigits_digits (zeroPadded_ne_nil width n) fun _ => isDigit_zeroPadded,digitsValue_zeroPadded]
  have hsign : ∀ rest, (zeroPadded width n).toList ≠ '+' :: rest := by
    intro rest hrest
    have hplus : '+' ∈ (zeroPadded width n).toList := by
      rw [hrest]
      exact List.mem_cons_self
    exact absurd (isDigit_zeroPadded hplus) (by decide)
  unfold parseUnsigned
  split
  · rename_i rest hrest
    exact absurd hrest (hsign rest)
  · simp [hdigits,h]

end Digits

section Calendar

theorem tdiv_shifted {n k : ℤ} (hk : 0 < k) : (if 0 ≤ n then n else n - (k - 1)).tdiv k = n / k := by
  split_ifs with hn
  · exact Int.tdiv_eq_ediv_of_nonneg hn
  · have hneg : n - (k - 1) = -(-n + (k - 1)) := by ring
    rw [hneg,Int.neg_tdiv,Int.tdiv_eq_ediv_of_nonneg (by omega)]
    have hle := Int.mul_ediv_self_le (x := n) hk.ne'
    have hlt := Int.lt_mul_ediv_self_add (x := n) hk
    have hround : (-n + (k - 1)) / k = -(n / k) := by
      rw [Int.ediv_eq_iff_of_pos hk]
      constructor <;> nlinarith
    rw [hround,neg_neg]

/-- The day counts whose years fit in 32 bits. -/
def InCalendar (days : ℤ) : Prop := -700000000000 ≤ days ∧ days ≤ 700000000000

variable {days doe yoe mp : ℤ}

theorem inCalendar_of_days (h : InSigned 32 days) : InCalendar days := by
  unfold InSigned at h
  unfold InCalendar
  omega

theorem inCalendar_of_millis {millis : ℤ} (h : InSigned 64 millis) : InCalendar (millis.tdiv 86400000) := by
  unfold InSigned at h
  unfold InCalendar
  have hsign : Int.sign 86400000 = 1 := rfl
  rw [Int.tdiv_eq_ediv,hsign]
  split_ifs <;> omega

theorem yearOfEra_mem (h : 0 ≤ doe ∧ doe ≤ 146096) :
    (doe - doe.tdiv 1460 + doe.tdiv 36524 - doe.tdiv 146096).tdiv 365 =
      (doe - doe / 1460 + doe / 36524 - doe / 146096) / 365 := by
  rw [Int.tdiv_eq_ediv_of_nonneg h.1,Int.tdiv_eq_ediv_of_nonneg h.1,Int.tdiv_eq_ediv_of_nonneg h.1]
  exact Int.tdiv_eq_ediv_of_nonneg (by omega)

theorem dayOfYear_mem (h : 0 ≤ doe ∧ doe ≤ 146096)
    (hyoe : yoe = (doe - doe / 1460 + doe / 36524 - doe / 146096) / 365) :
    0 ≤ doe - (365 * yoe + yoe / 4 - yoe / 100) ∧ doe - (365 * yoe + yoe / 4 - yoe / 100) ≤ 365 := by
  have hcentury : 0 ≤ yoe / 100 ∧ yoe / 100 ≤ 3 := by omega
  have hera : doe / 146096 = 0 ∨ doe / 146096 = 1 := by omega
  obtain ⟨century,hcentury'⟩ : ∃ century, century = yoe / 100 := ⟨_,rfl⟩
  rw [← hcentury'] at hcentury ⊢
  obtain ⟨hlow,hhigh⟩ := hcentury
  have hcount : doe / 36524 = century ∨ doe / 36524 = century + 1 := by omega
  interval_cases century <;> rcases hcount with hcount | hcount <;> rcases hera with hera | hera <;> omega

theorem daysFromCivil_era {e day : ℤ} {month : ℕ} (hyoe : 0 ≤ yoe ∧ yoe ≤ 399) (hmp : 0 ≤ mp ∧ mp ≤ 11)
    (hmonth : (month : ℤ) = mp + if mp < 10 then 3 else -9) (hday : 0 ≤ day) :
    Execution.daysFromCivil (yoe + e * 400 + if (month : ℤ) ≤ 2 then 1 else 0) month day.toNat =
      e * 146097 + (yoe * 365 + yoe / 4 - yoe / 100 + ((153 * mp + 2) / 5 + day - 1)) - 719468 := by
  have hyear : yoe + e * 400 + (if (month : ℤ) ≤ 2 then 1 else 0) - (if month ≤ 2 then 1 else 0) = yoe + e * 400 := by
    split_ifs <;> omega
  have hera : (if 0 ≤ yoe + e * 400 then yoe + e * 400 else yoe + e * 400 - 399).tdiv 400 = e := by
    have hshift := tdiv_shifted (n := yoe + e * 400) (k := 400) (by decide)
    exact hshift.trans (by omega)
  have hmonth' : (month : ℤ) + (if 2 < month then -3 else 9) = mp := by
    split_ifs at hmonth ⊢ <;> omega
  unfold Execution.daysFromCivil
  simp only [hyear]
  rw [hera,hmonth',add_sub_cancel_right,Int.tdiv_eq_ediv_of_nonneg hyoe.1,
    Int.tdiv_eq_ediv_of_nonneg hyoe.1,Int.tdiv_eq_ediv_of_nonneg (by omega),Int.toNat_of_nonneg hday]

theorem daysBefore_march (year : ℤ) {month : ℕ} (h : 1 ≤ month ∧ month ≤ 12) :
    (daysBefore year month : ℤ) = (153 * ((month : ℤ) + if 2 < month then -3 else 9) + 2) / 5 +
      if 2 < month then (yearLength year : ℤ) - 306 else -306 := by
  obtain ⟨hlow,hhigh⟩ := h
  rw [daysBefore,yearLength,monthLength_eq]
  by_cases hleap : IsLeap year
  · rw [decide_eq_true hleap,if_pos hleap]
    interval_cases month <;> rfl
  · rw [decide_eq_false hleap,if_neg hleap]
    interval_cases month <;> rfl

theorem daysFromCivil_date (date : CalendarDate) :
    Execution.daysFromCivil date.year date.month date.day = date.dayNumber := by
  obtain ⟨hlow,hhigh⟩ := date.month_mem
  have hbefore := daysBefore_march date.year date.month_mem
  have hnext := yearStart_succ date.year
  have hera := tdiv_shifted (n := date.year - if date.month ≤ 2 then 1 else 0) (k := 400) (by decide)
  have hshift : (400 : ℤ) - 1 = 399 := rfl
  rw [hshift] at hera
  unfold Execution.daysFromCivil CalendarDate.dayNumber
  dsimp only
  rw [hera,hbefore]
  have hyoe : 0 ≤ (date.year - if date.month ≤ 2 then 1 else 0) - (date.year - if date.month ≤ 2 then 1 else 0) / 400 * 400 := by
    omega
  rw [Int.tdiv_eq_ediv_of_nonneg hyoe,Int.tdiv_eq_ediv_of_nonneg hyoe,Int.tdiv_eq_ediv_of_nonneg (by split_ifs <;> omega)]
  unfold yearStart at hnext ⊢
  split_ifs at hbefore ⊢ <;> omega

/-- The last day of a year that begins in March is the one of a leap year. -/
theorem isLeap_of_lastDay (h : 0 ≤ doe ∧ doe ≤ 146096)
    (hyoe : yoe = (doe - doe / 1460 + doe / 36524 - doe / 146096) / 365)
    (hlast : doe - (365 * yoe + yoe / 4 - yoe / 100) = 365) (era : ℤ) : IsLeap (yoe + era * 400 + 1) := by
  obtain ⟨century,hcentury⟩ : ∃ century, century = yoe / 100 := ⟨_,rfl⟩
  rw [← hcentury] at hlast
  have hcount : doe / 36524 = century ∨ doe / 36524 = century + 1 := by omega
  have hfour : (yoe + 1) % 4 = 0 := by
    by_contra hfour
    have hrest : yoe % 4 ≠ 3 := by omega
    have hquarter : yoe = 4 * (yoe / 4) + yoe % 4 := by omega
    have hround : doe / 1460 = yoe / 4 := by omega
    omega
  have hcentury' : (yoe + 1) % 100 = 0 → yoe = 399 := by
    intro hhundred
    have hdoe : doe = 36524 * (century + 1) := by omega
    have hround : doe / 1460 = 25 * (century + 1) := by omega
    omega
  unfold IsLeap
  omega

/-- Months counted from March are no longer than those of the calendar. -/
theorem eraDay_le {year doy : ℤ} {month : ℕ} (hdoy : 0 ≤ doy ∧ doy ≤ 365) (hmp : mp = (5 * doy + 2) / 153)
    (hmonth : (month : ℤ) = mp + if mp < 10 then 3 else -9) (hleap : doy = 365 → IsLeap year) :
    doy - (153 * mp + 2) / 5 + 1 ≤ monthLength year month := by
  have hshift : month = 2 ∧ mp = 11 ∨ month ∈ [4,6,9,11] ∧ mp ∈ [1,3,6,8] ∨
      month ≠ 2 ∧ month ∉ [4,6,9,11] ∧ mp ∈ [0,2,4,5,7,9,10] := by
    simp only [List.mem_cons,List.not_mem_nil,or_false]
    split_ifs at hmonth <;> omega
  unfold monthLength
  rcases hshift with ⟨rfl,rfl⟩ | ⟨hm,hm'⟩ | ⟨h2,hm,hm'⟩
  · rw [if_pos rfl]
    split_ifs with h
    · omega
    · have hne : doy ≠ 365 := fun hd => h (hleap hd)
      omega
  · simp only [List.mem_cons,List.not_mem_nil,or_false] at hm'
    rw [if_neg (by rintro rfl; exact absurd hm (by decide)),if_pos hm]
    omega
  · simp only [List.mem_cons,List.not_mem_nil,or_false] at hm'
    rw [if_neg h2,if_neg hm]
    omega

theorem marchMonth_mem {doy : ℤ} (h : 0 ≤ doy ∧ doy ≤ 365) (hmp : mp = (5 * doy + 2) / 153) :
    (0 ≤ mp ∧ mp ≤ 11) ∧ 1 ≤ doy - (153 * mp + 2) / 5 + 1 ∧ doy - (153 * mp + 2) / 5 + 1 ≤ 31 := by
  omega

/-- A day count is the count of its civil date; only the year may not fit. -/
theorem civilFromDays_date (h : -2 ^ 62 ≤ days ∧ days ≤ 2 ^ 62) : ∃ date : CalendarDate,
    date.dayNumber = days ∧ yearFromDays days = okOr (checkedSigned 32 date.year) dateOverflow ∧
      civilFromDays days = (okOr (checkedSigned 32 date.year) dateOverflow).bind fun year =>
        .ok (year,date.month,date.day) := by
  obtain ⟨z,hz⟩ : ∃ z, z = days + 719468 := ⟨_,rfl⟩
  have hwrap : wrapSigned 64 (days + 719468) = z := by
    rw [hz]
    exact wrapSigned_of_mem (by decide) (by unfold InSigned; omega)
  have hwrap' : wrapSigned 64 (z - 146096) = z - (146097 - 1) :=
    wrapSigned_of_mem (by decide) (by unfold InSigned; omega)
  obtain ⟨era,hera⟩ : ∃ era, era = z / 146097 := ⟨_,rfl⟩
  obtain ⟨doe,hdoe⟩ : ∃ doe, doe = z - era * 146097 := ⟨_,rfl⟩
  have hdoe' : 0 ≤ doe ∧ doe ≤ 146096 := by omega
  obtain ⟨yoe,hyoe⟩ : ∃ yoe, yoe = (doe - doe / 1460 + doe / 36524 - doe / 146096) / 365 := ⟨_,rfl⟩
  have hyoe' : 0 ≤ yoe ∧ yoe ≤ 399 := by omega
  obtain ⟨doy,hdoy⟩ : ∃ doy, doy = doe - (365 * yoe + yoe / 4 - yoe / 100) := ⟨_,rfl⟩
  have hdoy' : 0 ≤ doy ∧ doy ≤ 365 := by
    rw [hdoy]
    exact dayOfYear_mem hdoe' hyoe
  obtain ⟨mp,hmp⟩ : ∃ mp, mp = (5 * doy + 2) / 153 := ⟨_,rfl⟩
  obtain ⟨hmp',hfirst,hend⟩ := marchMonth_mem hdoy' hmp
  obtain ⟨day,hday⟩ : ∃ day, day = doy - (153 * mp + 2) / 5 + 1 := ⟨_,rfl⟩
  obtain ⟨month,hmonth⟩ : ∃ month, month = mp + if mp < 10 then 3 else -9 := ⟨_,rfl⟩
  have hmonth' : 1 ≤ month ∧ month ≤ 12 := by
    clear hwrap hwrap' hera hdoe hyoe hdoy hmp hday hfirst hend
    split_ifs at hmonth <;> omega
  obtain ⟨year,hyear⟩ : ∃ year, year = yoe + era * 400 + if month ≤ 2 then 1 else 0 := ⟨_,rfl⟩
  have hcast : ((month.toNat : ℕ) : ℤ) = month := Int.toNat_of_nonneg (zero_le_one.trans hmonth'.1)
  have hday' : 1 ≤ day ∧ day ≤ 31 := by
    rw [hday]
    exact ⟨hfirst,hend⟩
  have hlength : day ≤ monthLength year month.toNat := by
    rw [hday]
    refine eraDay_le hdoy' hmp (hcast.trans hmonth) fun hlast => ?_
    have hjanuary : month ≤ 2 := by
      clear hwrap hwrap' hera hdoe hyoe hdoy hday hfirst hend
      split_ifs at hmonth <;> omega
    rw [hyear,if_pos hjanuary]
    exact isLeap_of_lastDay hdoe' hyoe (hdoy ▸ hlast) era
  have htexts : (if 0 ≤ z then z else z - (146097 - 1)).tdiv 146097 = era := (tdiv_shifted (by decide)).trans hera.symm
  have hmonthNat : 1 ≤ month.toNat ∧ month.toNat ≤ 12 := ⟨Int.lt_toNat.mpr hmonth'.1,Int.toNat_le.mpr hmonth'.2⟩
  have hdayNat : 1 ≤ day.toNat ∧ day.toNat ≤ monthLength year month.toNat :=
    ⟨Int.lt_toNat.mpr hday'.1,Int.toNat_le.mpr hlength⟩
  have hdoy5 : 0 ≤ 5 * doy + 2 := add_nonneg (mul_nonneg (by decide) hdoy'.1) (by decide)
  have hmp153 : 0 ≤ 153 * mp + 2 := add_nonneg (mul_nonneg (by decide) hmp'.1) (by decide)
  refine ⟨⟨year,month.toNat,day.toNat,hmonthNat,hdayNat⟩,?_,?_,?_⟩
  · have hcount := daysFromCivil_era hyoe' hmp' (hcast.trans hmonth) (zero_le_one.trans hday'.1) (e := era)
    rw [hcast,← hyear] at hcount
    refine (daysFromCivil_date ⟨year,month.toNat,day.toNat,hmonthNat,hdayNat⟩).symm.trans (hcount.trans ?_)
    rw [hday]
    linarith
  · unfold yearFromDays
    simp only [hwrap,hwrap']
    rw [htexts,← hdoe,yearOfEra_mem hdoe',← hyoe,Int.tdiv_eq_ediv_of_nonneg hyoe'.1,
      Int.tdiv_eq_ediv_of_nonneg hyoe'.1,← hdoy,Int.tdiv_eq_ediv_of_nonneg hdoy5,← hmp,← hmonth,← hyear]
  · unfold civilFromDays
    simp only [hwrap,hwrap']
    rw [htexts,← hdoe,yearOfEra_mem hdoe',← hyoe,Int.tdiv_eq_ediv_of_nonneg hyoe'.1,
      Int.tdiv_eq_ediv_of_nonneg hyoe'.1,← hdoy,Int.tdiv_eq_ediv_of_nonneg hdoy5,← hmp,
      Int.tdiv_eq_ediv_of_nonneg hmp153,← hday,← hmonth,← hyear,
      if_pos ⟨zero_le_one.trans hmonth'.1,hmonth'.2.trans (by decide)⟩,
      if_pos ⟨zero_le_one.trans hday'.1,hday'.2.trans (by decide)⟩]
    rfl

/-- A day count is the count of its civil date, which is a date of the calendar. -/
theorem civilFromDays_of_mem (h : InCalendar days) :
    ∃ year month day, civilFromDays days = .ok (year,month,day) ∧ Execution.daysFromCivil year month day = days ∧
      1 ≤ month ∧ month ≤ 12 ∧ 1 ≤ day ∧ day ≤ 31 ∧ InSigned 32 year ∧ (0 ≤ year ↔ -719528 ≤ days) := by
  unfold InCalendar at h
  have hrange : -2 ^ 62 ≤ days ∧ days ≤ 2 ^ 62 := by omega
  obtain ⟨date,hdays,-,hcivil⟩ := civilFromDays_date hrange
  have hyears := date.dayNumber_mem
  rw [hdays] at hyears
  have hera : 0 ≤ date.year ↔ -719528 ≤ days := by
    have hzero : yearStart 0 = -366 := by decide
    rcases lt_trichotomy date.year 0 with hneg | hnil | hpos
    · have hle := yearStart_le hneg
      omega
    · rw [hnil] at hyears
      omega
    · have hle := yearStart_le hpos
      omega
  have hyear : InSigned 32 date.year := by
    unfold yearStart yearLength at hyears
    unfold InSigned
    split_ifs at hyears <;> omega
  have hday : date.day ≤ 31 := date.day_mem.2.trans (by unfold monthLength; split_ifs <;> decide)
  rw [checkedSigned_of_mem hyear] at hcivil
  exact ⟨_,_,_,hcivil,(daysFromCivil_date date).trans hdays,date.month_mem.1,date.month_mem.2,
    date.day_mem.1,hday,hyear,hera⟩

end Calendar

section Texts

def isDateChar (c : Char) : Bool := c.isDigit || c = '-'

theorem isWhitespace_dateChar {c : Char} (h : isDateChar c = true) : isWhitespace c = false := by
  rw [isDateChar,Bool.or_eq_true,decide_eq_true_eq] at h
  exact isWhitespace_of_numeral (h.imp id Or.inl)

theorem ne_dateChar {c d : Char} (h : isDateChar c = true) (hd : isDateChar d = false) : c ≠ d := by
  rintro rfl
  exact absurd (h.symm.trans hd) (by decide)

variable {digits text : List Char}

theorem isDateChar_of_digits (h : ∀ c ∈ digits, c.isDigit = true) :
    ∀ c ∈ digits, isDateChar c = true := fun c hc => by simp [isDateChar,h c hc]

theorem dash_notMem (h : ∀ c ∈ digits, c.isDigit = true) : '-' ∉ digits :=
  fun hmem => absurd (h '-' hmem) (by decide)

theorem zeroPadded_negSucc (width n : ℕ) : ∃ digits, (zeroPadded width (Int.negSucc n)).toList = '-' :: digits ∧
    ∀ c ∈ digits, c.isDigit = true := by
  have hsign : Int.negSucc n < 0 := Int.negSucc_lt_zero n
  refine ⟨List.replicate (width - 1 - (toString (n + 1)).toList.length) '0' ++ (toString (n + 1)).toList,?_,?_⟩
  · unfold zeroPadded
    rw [if_pos hsign]
    exact String.toList_ofList
  · intro c hc
    rw [List.mem_append] at hc
    rcases hc with hc | hc
    · rw [List.eq_of_mem_replicate hc]
      decide
    · rw [Nat.toString_eq_repr,Nat.toList_repr] at hc
      exact Nat.isDigit_of_mem_toDigits (by decide) (by decide) hc

theorem toList_dateText (year : ℤ) (month day : ℕ) : (dateText (year,month,day)).toList =
    (zeroPadded 4 year).toList ++ '-' :: ((zeroPadded 2 month).toList ++ '-' :: (zeroPadded 2 day).toList) := by
  simp [dateText]

theorem isDateChar_dateText {year : ℤ} {month day : ℕ} :
    ∀ c ∈ (dateText (year,month,day)).toList, isDateChar c = true := by
  have hyear : ∀ c ∈ (zeroPadded 4 year).toList, isDateChar c = true := by
    cases year with
    | ofNat n => exact isDateChar_of_digits fun _ => isDigit_zeroPadded
    | negSucc n =>
      obtain ⟨digits,htext,hdigits⟩ := zeroPadded_negSucc 4 n
      rw [htext,List.forall_mem_cons]
      exact ⟨rfl,isDateChar_of_digits hdigits⟩
  have hpadded : ∀ n : ℕ, ∀ c ∈ (zeroPadded 2 n).toList, isDateChar c = true :=
    fun n => isDateChar_of_digits fun _ => isDigit_zeroPadded
  rw [toList_dateText,List.forall_mem_append,List.forall_mem_cons,List.forall_mem_append,List.forall_mem_cons]
  exact ⟨hyear,rfl,hpadded month,rfl,hpadded day⟩

theorem parseDateParts_dateText {year : ℤ} {month day : ℕ} (hyear : InSigned 32 year) (hmonth : 1 ≤ month ∧ month ≤ 12)
    (hday : 1 ≤ day ∧ day ≤ 31) :
    parseDateParts (dateText (year,month,day)).toList = if 0 ≤ year then some (year,month,day) else none := by
  have hrest : splitAll '-' ((zeroPadded 2 month).toList ++ '-' :: (zeroPadded 2 day).toList) =
      [(zeroPadded 2 month).toList,(zeroPadded 2 day).toList] := by
    rw [splitAll_append (dash_notMem fun _ => isDigit_zeroPadded),splitAll_of_notMem (dash_notMem fun _ => isDigit_zeroPadded)]
  unfold parseDateParts
  rw [toList_dateText]
  cases year with
  | ofNat n =>
    have hyear' : parseSigned 32 (zeroPadded 4 (Int.ofNat n)).toList = some (n : ℤ) := parseSigned_zeroPadded hyear
    have hpos : 0 ≤ Int.ofNat n := Int.natCast_nonneg n
    have hdash : '-' ∉ (zeroPadded 4 (Int.ofNat n)).toList := dash_notMem fun _ => isDigit_zeroPadded
    rw [splitAll_append hdash,hrest]
    dsimp only
    rw [hyear',parseUnsigned_zeroPadded (by simp [maxUnsigned]; omega),
      parseUnsigned_zeroPadded (by simp [maxUnsigned]; omega),if_pos hpos]
    exact if_pos ⟨hmonth.1,hmonth.2,hday⟩
  | negSucc n =>
    obtain ⟨digits,htext,hdigits⟩ := zeroPadded_negSucc 4 n
    rw [htext,List.cons_append,splitAll_cons_self,splitAll_append (dash_notMem hdigits),hrest,
      if_neg (not_le.mpr (Int.negSucc_lt_zero n))]

theorem trim_dateChars (h : ∀ c ∈ text, isDateChar c = true) : trim text = text := by
  have htrim : trim ([] ++ text ++ []) = text := trimBy_append isWhitespace (List.forall_mem_nil _)
    (fun c hc => isWhitespace_dateChar (h c hc)) (List.forall_mem_nil _)
  rwa [List.append_nil,List.nil_append] at htrim

theorem parseDateDays_dateChars (h : ∀ c ∈ text, isDateChar c = true) :
    parseDateDays text = (parseDateParts text).map fun (year,month,day) => Execution.daysFromCivil year month day := by
  have hdate : text.takeWhile (fun c => c ≠ ' ' ∧ c ≠ 'T') = text := by
    refine List.takeWhile_eq_self_iff.mpr fun c hc => decide_eq_true ⟨?_,?_⟩
    · exact ne_dateChar (h c hc) rfl
    · exact ne_dateChar (h c hc) rfl
  unfold parseDateDays
  rw [trim_dateChars h]
  dsimp only
  rw [hdate]

theorem parseTimestampMillis_dateChars (h : ∀ c ∈ text, isDateChar c = true) :
    parseTimestampMillis text = (parseDateDays text).bind fun days => checkedSigned 64 (days * 86400000) := by
  have hblank : splitOnce ' ' text = none := splitOnce_eq_none.mpr fun hmem => ne_dateChar (h _ hmem) rfl rfl
  have hmark : splitOnce 'T' text = none := splitOnce_eq_none.mpr fun hmem => ne_dateChar (h _ hmem) rfl rfl
  have hoffset : splitTimeOffset "00:00:00".toList = some ("00:00:00".toList,0) := by decide
  have htime : parseTimeParts "00:00:00".toList = some (0,0,0) := by decide
  rw [parseDateDays_dateChars h]
  unfold parseTimestampMillis
  rw [trim_dateChars h]
  dsimp only
  rw [hblank,hmark]
  rw [Option.none_or,Option.getD_none]
  rw [hoffset,Option.bind_eq_bind,Option.bind_some]
  cases hparts : parseDateParts text with
  | none => rfl
  | some date =>
    obtain ⟨year,month,day⟩ := date
    rw [Option.bind_eq_bind,Option.bind_some,Option.map_some,Option.bind_some]
    rw [htime,Option.bind_eq_bind,Option.bind_some]
    dsimp only
    cases hmillis : checkedSigned 64 (Execution.daysFromCivil year month day * 86400000) with
    | none => rfl
    | some millis =>
      obtain ⟨hrange,rfl⟩ := checkedSigned_eq_some.mp hmillis
      have hzero : wrapSigned 64 0 = 0 := by decide
      simp [hmillis,hzero]

theorem parseDateDays_civilFromDays {days : ℤ} (h : InCalendar days) : ∃ date, civilFromDays days = .ok date ∧
    parseDateDays (dateText date).toList = (if -719528 ≤ days then some days else none) ∧
    parseTimestampMillis (dateText date).toList =
      if -719528 ≤ days then checkedSigned 64 (days * 86400000) else none := by
  obtain ⟨year,month,day,hcivil,hcount,hmonth,hmonth',hday,hday',hyear,hera⟩ := civilFromDays_of_mem h
  have hdays : parseDateDays (dateText (year,month,day)).toList = if -719528 ≤ days then some days else none := by
    rw [parseDateDays_dateChars isDateChar_dateText,parseDateParts_dateText hyear ⟨hmonth,hmonth'⟩ ⟨hday,hday'⟩]
    simp only [hera]
    split_ifs
    · exact congrArg some hcount
    · rfl
  refine ⟨(year,month,day),hcivil,hdays,?_⟩
  rw [parseTimestampMillis_dateChars isDateChar_dateText,hdays]
  split_ifs <;> rfl

end Texts
end Dodam.Sql
