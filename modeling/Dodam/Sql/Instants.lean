import Dodam.Execution.Filter.DateText
import Dodam.Sql.Dates

/-! # The days and instants of literals

What a date or timestamp text writes down, and what is read from it. The readers that prune row
groups are the same.
-/
namespace Dodam.Sql
open Foundation Execution

/-- The year, the month and the day of a date text. -/
def writtenDate (text : List Char) : Option (ℤ × ℕ × ℕ) :=
  match splitAll '-' ((trim text).takeWhile fun c => c ≠ ' ' ∧ c ≠ 'T') with
  | [year,month,day] => do
    let year ← parseSigned 32 year
    let month ← parseUnsigned 32 month
    let day ← parseUnsigned 32 day
    return (year,month,day)
  | _ => none

/-- A time of day, and the sign, the hours and the minutes of its zone. -/
structure ZonedTime where
  hour : ℕ
  minute : ℕ
  second : ℕ
  sign : ℤ
  zoneHours : ℤ
  zoneMinutes : ℤ

namespace ZonedTime

def millisOfDay (time : ZonedTime) : ℤ := (time.hour * 3600 + time.minute * 60 + time.second) * 1000

def offset (time : ZonedTime) : ℤ := time.sign * (time.zoneHours * 60 + time.zoneMinutes)

end ZonedTime

/-- The zone of a time: `Z`, nothing, or a signed number of hours and minutes. -/
def writtenZone (time : List Char) : Option (List Char × ℤ × ℤ × ℤ) :=
  let time := trim time
  if time.getLast? = some 'Z' then some (time.dropLast,1,0,0)
  else
    match (time.drop 1).findIdx? fun c => c = '+' ∨ c = '-' with
    | none => some (time,1,0,0)
    | some index => do
      let offset := time.drop (index + 1)
      let (hours,minutes) ← splitOnce ':' (offset.drop 1)
      let hours ← parseSigned 64 hours
      let minutes ← parseSigned 64 minutes
      return (time.take (index + 1),if offset.head? = some '-' then -1 else 1,hours,minutes)

/-- The time of a timestamp text, midnight where there is none. -/
def writtenTime (text : List Char) : Option ZonedTime := do
  let value := trim text
  let (_,timeWithZone) :=
    ((splitOnce ' ' value).or (splitOnce 'T' value)).getD (value,"00:00:00".toList)
  let (time,sign,zoneHours,zoneMinutes) ← writtenZone timeWithZone
  let (hour,minute,second) ← parseTimeParts time
  return ⟨hour,minute,second,sign,zoneHours,zoneMinutes⟩

def DenotesDay (text : List Char) (days : ℤ) : Prop :=
  ∃ date : CalendarDate, writtenDate text = some (date.year,date.month,date.day) ∧ days = date.dayNumber

/-- The instant is the written time of the written day, less a zone of at most 23:59. -/
def DenotesInstant (text : List Char) (millis : ℤ) : Prop :=
  ∃ days time, DenotesDay text days ∧ writtenTime text = some time ∧
    time.hour ≤ 23 ∧ time.minute ≤ 59 ∧ time.second ≤ 59 ∧
    -(23 * 60 + 59) ≤ time.offset ∧ time.offset ≤ 23 * 60 + 59 ∧
    millis = days * 86400000 + time.millisOfDay - time.offset * 60000

def DayInMonth (text : List Char) : Prop :=
  ∀ year month day, writtenDate text = some (year,month,day) → day ≤ monthLength year month

/-- The written zone is at least -23:59 before its sign is applied. -/
def ZoneInDay (text : List Char) : Prop :=
  ∀ time, writtenTime text = some time → -(23 * 60 + 59) ≤ time.zoneHours * 60 + time.zoneMinutes

section Days

theorem daysInMonth_eq {year : ℤ} {month : ℕ} (h : 1 ≤ month ∧ month ≤ 12) :
    daysInMonth year month = monthLength year month := by
  have hzero : ∀ k : ℤ, year.tmod k = 0 ↔ k ∣ year := fun k =>
    ⟨Int.dvd_of_tmod_eq_zero,Int.tmod_eq_zero_of_dvd⟩
  have hleap : isLeapYear year = decide (IsLeap year) := by
    rw [Bool.eq_iff_iff,decide_eq_true_eq]
    simp [isLeapYear,IsLeap,hzero]
  obtain ⟨hlow,hhigh⟩ := h
  rw [daysInMonth,hleap,monthLength_eq]
  interval_cases month <;> rfl

end Days

section Texts

theorem writtenDate_of_parts {text : List Char} {year : ℤ} {month day : ℕ}
    (h : parseDateParts ((trim text).takeWhile fun c => c ≠ ' ' ∧ c ≠ 'T') = some (year,month,day)) :
    writtenDate text = some (year,month,day) := by
  obtain ⟨-,-,-,y,m,d,hsplit,hy,hm,hd⟩ := parseDateParts_eq_some h
  unfold writtenDate
  simp only [hsplit,hy,hm,hd]
  rfl

theorem takeWhile_date {value date : List Char} (hdate : ∀ c ∈ date, isDateText c = true)
    (h : date = (((splitOnce ' ' value).or (splitOnce 'T' value)).getD (value,"00:00:00".toList)).1) :
    value.takeWhile (fun c => c ≠ ' ' ∧ c ≠ 'T') = date := by
  have hkeep : ∀ c ∈ date, decide (c ≠ ' ' ∧ c ≠ 'T') = true := fun c hc =>
    decide_eq_true ⟨ne_dateText (hdate c hc) rfl,ne_dateText (hdate c hc) rfl⟩
  cases hblank : splitOnce ' ' value with
  | some parts =>
    obtain ⟨before,after⟩ := parts
    rw [hblank] at h
    obtain rfl : date = before := h
    rw [(splitOnce_eq_some.mp hblank).1,List.takeWhile_append_of_pos hkeep]
    simp
  | none =>
    cases hmark : splitOnce 'T' value with
    | some parts =>
      obtain ⟨before,after⟩ := parts
      rw [hblank,hmark] at h
      obtain rfl : date = before := h
      rw [(splitOnce_eq_some.mp hmark).1,List.takeWhile_append_of_pos hkeep]
      simp
    | none =>
      rw [hblank,hmark] at h
      obtain rfl : date = value := h
      exact List.takeWhile_eq_self_iff.mpr hkeep

/-- The zone that is split off is the written one, wrapped to 64 bits. -/
theorem splitTimeOffset_eq_some {time rest : List Char} {offset : ℤ} (h : splitTimeOffset time = some (rest,offset)) :
    ∃ sign hours minutes, writtenZone time = some (rest,sign,hours,minutes) ∧ (sign = 1 ∨ sign = -1) ∧
      hours ≤ 23 ∧ minutes ≤ 59 ∧ offset = wrapSigned 64 (sign * (hours * 60 + minutes)) := by
  unfold splitTimeOffset at h
  unfold writtenZone
  dsimp only at h ⊢
  split_ifs at h ⊢ with hz
  · cases h
    exact ⟨1,0,0,rfl,.inl rfl,by decide,by decide,rfl⟩
  · rcases Option.eq_none_or_eq_some (((trim time).drop 1).findIdx? fun c => c = '+' ∨ c = '-') with hnone | ⟨index,hindex⟩
    · rw [hnone] at h ⊢
      cases h
      exact ⟨1,0,0,rfl,.inl rfl,by decide,by decide,rfl⟩
    · rw [hindex] at h ⊢
      dsimp only at h ⊢
      obtain ⟨⟨hours,minutes⟩,hsplit,h⟩ := Option.bind_eq_some_iff.mp h
      obtain ⟨zoneHours,hhours,h⟩ := Option.bind_eq_some_iff.mp h
      obtain ⟨zoneMinutes,hminutes,h⟩ := Option.bind_eq_some_iff.mp h
      split at h
      · cases h
      · rename_i hrange
        obtain ⟨rfl,rfl⟩ := Prod.mk.inj (Option.some.inj h)
        rw [not_or,not_lt,not_lt] at hrange
        refine ⟨if (((trim time).drop (index + 1)).head? = some '-') then -1 else 1,zoneHours,zoneMinutes,?_,?_,hrange.1,hrange.2,rfl⟩
        · rw [hsplit]
          simp only [Option.bind_eq_bind,Option.bind_some,hhours,hminutes]
          rfl
        · split_ifs
          · exact .inr rfl
          · exact .inl rfl

theorem parseTimeParts_mem {time : List Char} {hour minute second : ℕ} (h : parseTimeParts time = some (hour,minute,second)) :
    hour ≤ 23 ∧ minute ≤ 59 ∧ second ≤ 59 := by
  have hbound : ∀ first second' third : List Char, (do
      let hour ← parseUnsigned 32 first
      let minute ← parseUnsigned 32 second'
      let second ← parseUnsigned 32 third
      if 23 < hour ∨ 59 < minute ∨ 59 < second then none else some (hour,minute,second)) =
        some (hour,minute,second) → hour ≤ 23 ∧ minute ≤ 59 ∧ second ≤ 59 := by
    intro first second' third h
    obtain ⟨hour',-,h⟩ := Option.bind_eq_some_iff.mp h
    obtain ⟨minute',-,h⟩ := Option.bind_eq_some_iff.mp h
    obtain ⟨second',-,h⟩ := Option.bind_eq_some_iff.mp h
    split_ifs at h with hrange
    cases h
    omega
  unfold parseTimeParts at h
  split at h
  · exact hbound _ _ _ h
  · exact hbound _ _ _ h
  · exact hbound _ _ _ h
  · cases h

theorem parseTimestampMillis_eq_some {text : List Char} {millis : ℤ} (h : parseTimestampMillis text = some millis) :
    ∃ year month day time, writtenDate text = some (year,month,day) ∧ (1 ≤ month ∧ month ≤ 12) ∧ 1 ≤ day ∧
      writtenTime text = some time ∧ (time.sign = 1 ∨ time.sign = -1) ∧ time.zoneHours ≤ 23 ∧ time.zoneMinutes ≤ 59 ∧
      time.hour ≤ 23 ∧ time.minute ≤ 59 ∧ time.second ≤ 59 ∧
      millis = Execution.daysFromCivil year month day * 86400000 + time.millisOfDay -
        wrapSigned 64 (wrapSigned 64 time.offset * 60000) := by
  unfold parseTimestampMillis at h
  dsimp only at h
  obtain ⟨⟨time,offset⟩,hzone,h⟩ := Option.bind_eq_some_iff.mp h
  obtain ⟨⟨year,month,day⟩,hdate,h⟩ := Option.bind_eq_some_iff.mp h
  obtain ⟨⟨hour,minute,second⟩,htime,h⟩ := Option.bind_eq_some_iff.mp h
  obtain ⟨millis₁,h₁,h⟩ := Option.bind_eq_some_iff.mp h
  obtain ⟨millis₂,h₂,h⟩ := Option.bind_eq_some_iff.mp h
  obtain ⟨millis₃,h₃,h⟩ := Option.bind_eq_some_iff.mp h
  obtain ⟨millis₄,h₄,h⟩ := Option.bind_eq_some_iff.mp h
  obtain ⟨-,rfl⟩ := checkedSigned_eq_some.mp h₁
  obtain ⟨-,rfl⟩ := checkedSigned_eq_some.mp h₂
  obtain ⟨-,rfl⟩ := checkedSigned_eq_some.mp h₃
  obtain ⟨-,rfl⟩ := checkedSigned_eq_some.mp h₄
  obtain ⟨-,rfl⟩ := checkedSigned_eq_some.mp h
  obtain ⟨hchars,hmonth,hday,-⟩ := parseDateParts_eq_some hdate
  obtain ⟨sign,hours,minutes,hwritten,hsign,hhours,hminutes,rfl⟩ := splitTimeOffset_eq_some hzone
  obtain ⟨hhour,hminute,hsecond⟩ := parseTimeParts_mem htime
  refine ⟨year,month,day,⟨hour,minute,second,sign,hours,minutes⟩,?_,hmonth,hday,?_,hsign,hhours,hminutes,hhour,hminute,
    hsecond,?_⟩
  · apply writtenDate_of_parts
    rw [takeWhile_date hchars rfl]
    exact hdate
  · unfold writtenTime
    dsimp only
    rw [hwritten]
    simp only [Option.bind_eq_bind,Option.bind_some,htime]
    rfl
  · simp only [ZonedTime.millisOfDay,ZonedTime.offset]
    ring

end Texts

section Denotation
variable {text : List Char} {year : ℤ} {month day : ℕ}

theorem denotesDay_iff (h : writtenDate text = some (year,month,day)) (hmonth : 1 ≤ month ∧ month ≤ 12) (hday : 1 ≤ day) :
    DenotesDay text (Execution.daysFromCivil year month day) ↔ DayInMonth text := by
  constructor
  · rintro ⟨date,hwritten,-⟩ year' month' day' hwritten'
    obtain ⟨rfl,rfl,rfl⟩ : date.year = year' ∧ date.month = month' ∧ date.day = day' := by
      simpa using hwritten.symm.trans hwritten'
    exact date.day_mem.2
  · intro hlength
    exact ⟨⟨year,month,day,hmonth,hday,hlength _ _ _ h⟩,h,daysFromCivil_date ⟨year,month,day,hmonth,hday,hlength _ _ _ h⟩⟩

theorem parseDateDays_eq_some {days : ℤ} (h : parseDateDays text = some days) : ∃ year month day,
    writtenDate text = some (year,month,day) ∧ (1 ≤ month ∧ month ≤ 12) ∧ 1 ≤ day ∧
      days = Execution.daysFromCivil year month day := by
  obtain ⟨⟨year,month,day⟩,hparts,hdays⟩ := Option.map_eq_some_iff.mp h
  obtain ⟨-,hmonth,hday,-⟩ := parseDateParts_eq_some hparts
  exact ⟨year,month,day,writtenDate_of_parts hparts,hmonth,hday,hdays.symm⟩

theorem wrapSigned_zone {offset : ℤ} (h : -(23 * 60 + 59) ≤ offset ∧ offset ≤ 23 * 60 + 59) :
    wrapSigned 64 (wrapSigned 64 offset * 60000) = offset * 60000 := by
  rw [wrapSigned_of_mem (x := offset) (by decide) (by unfold InSigned; omega)]
  exact wrapSigned_of_mem (by decide) (by unfold InSigned; omega)

end Denotation

/-- The day count is the calendar's: it starts with the epoch, counts one for each
date and grows with the year, the month and the day. An accepted text denotes its
day exactly when the day is in its month, and its instant exactly when the zone
also is at least -23:59 before its sign. -/
theorem literals_denote_iff (text : List Char) :
    (∀ date : CalendarDate, Execution.daysFromCivil date.year date.month date.day = date.dayNumber) ∧
      (∀ date date' : CalendarDate, date < date' →
        Execution.daysFromCivil date.year date.month date.day < Execution.daysFromCivil date'.year date'.month date'.day) ∧
      (∀ date : CalendarDate, Execution.daysFromCivil date.next.year date.next.month date.next.day =
        Execution.daysFromCivil date.year date.month date.day + 1) ∧
      (∀ days, parseDateDays text = some days → (DenotesDay text days ↔ DayInMonth text)) ∧
      ∀ millis, parseTimestampMillis text = some millis →
        (DenotesInstant text millis ↔ DayInMonth text ∧ ZoneInDay text) := by
  refine ⟨daysFromCivil_date,?_,?_,?_,?_⟩
  · intro date date' h
    simp only [daysFromCivil_date]
    exact CalendarDate.dayNumber_strictMono h
  · intro date
    rw [daysFromCivil_date,daysFromCivil_date]
    exact date.dayNumber_next
  · intro days h
    obtain ⟨year,month,day,hwritten,hmonth,hday,rfl⟩ := parseDateDays_eq_some h
    exact denotesDay_iff hwritten hmonth hday
  · intro millis h
    obtain ⟨year,month,day,time,hdate,hmonth,hday,htime,hsign,hhours,hminutes,hhour,hminute,hsecond,rfl⟩ :=
      parseTimestampMillis_eq_some h
    have hiff := denotesDay_iff hdate hmonth hday
    constructor
    · rintro ⟨days,time',hdays,htime',-,-,-,hlow,hhigh,-⟩
      obtain rfl : time = time' := Option.some.inj (htime.symm.trans htime')
      obtain ⟨date,hwritten,rfl⟩ := hdays
      refine ⟨fun year' month' day' hwritten' => ?_,fun time' htime' => ?_⟩
      · obtain ⟨rfl,rfl,rfl⟩ : date.year = year' ∧ date.month = month' ∧ date.day = day' := by
          simpa using hwritten.symm.trans hwritten'
        exact date.day_mem.2
      · obtain rfl : time = time' := Option.some.inj (htime.symm.trans htime')
        unfold ZonedTime.offset at hlow hhigh
        rcases hsign with hsign | hsign <;> rw [hsign] at hlow hhigh <;> omega
    · rintro ⟨hlength,hzone⟩
      have hzone := hzone time htime
      have hoffset : -(23 * 60 + 59) ≤ time.offset ∧ time.offset ≤ 23 * 60 + 59 := by
        unfold ZonedTime.offset
        rcases hsign with hsign | hsign <;> rw [hsign] <;> omega
      refine ⟨_,time,hiff.mpr hlength,htime,hhour,hminute,hsecond,hoffset.1,hoffset.2,?_⟩
      rw [wrapSigned_zone hoffset]

/-- The thirtieth of February is read as the second of March, and a zone of -99 hours is taken. -/
theorem february_thirtieth :
    parseDateDays "2023-02-30".toList = some 19418 ∧ ¬DenotesDay "2023-02-30".toList 19418 ∧
      parseTimestampMillis "1970-01-01 00:00:00+-99:00".toList = some 356400000 ∧
      ¬DenotesInstant "1970-01-01 00:00:00+-99:00".toList 356400000 := by
  refine ⟨by decide +kernel,?_,by decide +kernel,?_⟩
  · rintro ⟨date,hwritten,-⟩
    have htext : writtenDate "2023-02-30".toList = some (2023,2,30) := by decide +kernel
    obtain ⟨hy,hm,hd⟩ : 2023 = date.year ∧ 2 = date.month ∧ 30 = date.day := by
      simpa using htext.symm.trans hwritten
    have hlast := date.day_mem.2
    rw [← hy,← hm,← hd] at hlast
    exact absurd hlast (by decide)
  · rintro ⟨days,time,-,htime,-,-,-,hlow,-⟩
    have htext : (writtenTime "1970-01-01 00:00:00+-99:00".toList).map ZonedTime.offset = some (-5940) := by decide +kernel
    rw [htime] at htext
    have hoffset : time.offset = -5940 := Option.some.inj htext
    omega

end Dodam.Sql
