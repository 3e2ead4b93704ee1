import Dodam.Sql.Instants
import Dodam.Sql.ScalarEval

/-! # Years of dates

The year of a day, by itself, through the window of days that
`Date32YearCache` keeps, and by EXTRACT; and the dates that lie some months
before or after another one.
-/
namespace Dodam.Sql
open Foundation Execution

/-- The years of the days from `baseDay` on. -/
structure Date32YearCache where
  baseDay : ℤ := 0
  years : List ℤ := []
  disabled : Bool := false

namespace Date32YearCache

def maxSpanDays : ℕ := 20000

/-- Pushes the year of the next day; the years pushed before an error stay. -/
def pushYear (first : ℤ) (state : Result Unit × List ℤ) : Result Unit × List ℤ :=
  match state.1.bind fun _ => yearFromDays (first + state.2.length) with
  | .ok year => (.ok (),state.2 ++ [year])
  | .error error => (.error error,state.2)

def pushYears (first : ℤ) (n : ℕ) (years : List ℤ) : Result Unit × List ℤ := (pushYear first)^[n] (.ok (),years)

/-- `self.years[index]`. -/
def yearAt (years : List ℤ) (index : ℕ) : Result ℤ := okOr years[index]? (.error .panicked)

/-- Differences of days are taken in 32 bits. -/
def year (cache : Date32YearCache) (day : ℤ) : Result ℤ × Date32YearCache :=
  if cache.disabled then (yearFromDays day,cache)
  else if cache.years = [] then
    match yearFromDays day with
    | .ok year => (.ok year,{ cache with baseDay := day, years := [year] })
    | .error error => (.error error,{ cache with baseDay := day })
  else if day < cache.baseDay then
    let prepend := wrapSigned 32 (cache.baseDay - day)
    if prepend < 0 then (dateOverflow,cache)
    else if maxSpanDays < prepend.toNat + cache.years.length then
      (yearFromDays day,{ cache with years := [], disabled := true })
    else
      match pushYears day prepend.toNat [] with
      | (.error error,_) => (.error error,cache)
      | (.ok _,years) =>
        (yearAt (years ++ cache.years) 0,{ cache with baseDay := day, years := years ++ cache.years })
  else
    let index := wrapSigned 32 (day - cache.baseDay)
    if index < 0 then (dateOverflow,cache)
    else if cache.years.length ≤ index.toNat then
      if maxSpanDays < index.toNat + 1 then (yearFromDays day,{ cache with years := [], disabled := true })
      else
        let (pushed,years) := pushYears cache.baseDay (index.toNat + 1 - cache.years.length) cache.years
        (pushed.bind fun _ => yearAt years index.toNat,{ cache with years := years })
    else (yearAt cache.years index.toNat,cache)

def answers : Date32YearCache → List ℤ → List (Result ℤ)
  | _, [] => []
  | cache, day :: days => (cache.year day).1 :: answers (cache.year day).2 days

/-- The window, when there is one, begins less than 2^31 days from the queried day. -/
def Reaches (cache : Date32YearCache) (day : ℤ) : Prop :=
  cache.disabled = true ∨ cache.years = [] ∨ |day - cache.baseDay| < 2 ^ 31

def ReachesAll : Date32YearCache → List ℤ → Prop
  | _, [] => True
  | cache, day :: days => cache.Reaches day ∧ ReachesAll (cache.year day).2 days

def Cached (first : ℤ) (years : List ℤ) : Prop :=
  ∀ (i : ℕ) (year : ℤ), years[i]? = some year → yearFromDays (first + i) = .ok year

structure Valid (cache : Date32YearCache) : Prop where
  baseDay_mem : InSigned 32 cache.baseDay
  years : Cached cache.baseDay cache.years

end Date32YearCache

/-- `EXTRACT(YEAR FROM ..)`, on values that are read. -/
def extractYear (value : ScalarValues) : Result ScalarValues := do
  let values ← scalarAsI64 value
  (readRows (fun days => (civilFromDays days).map Prod.fst) values).map .int64

section Years

theorem civilFromDays_of_inSigned {day : ℤ} (h : InSigned 32 day) : ∃ date : CalendarDate, date.dayNumber = day ∧
    civilFromDays day = .ok (date.year,date.month,date.day) ∧ yearFromDays day = .ok date.year := by
  have hmem := inCalendar_of_days h
  obtain ⟨year,month,days,hcivil,-,-,-,-,-,hyear,-⟩ := civilFromDays_of_mem hmem
  have hrange : -2 ^ 62 ≤ day ∧ day ≤ 2 ^ 62 := by
    unfold InCalendar at hmem
    omega
  obtain ⟨date,hdate,hyears,hdate'⟩ := civilFromDays_date hrange
  cases hchecked : checkedSigned 32 date.year with
  | none =>
    rw [hchecked,hcivil] at hdate'
    cases hdate'
  | some y =>
    obtain ⟨-,rfl⟩ := checkedSigned_eq_some.mp hchecked
    rw [hchecked] at hdate' hyears
    exact ⟨date,hdate,hdate',hyears⟩

theorem yearFromDays_ok {day : ℤ} (h : InSigned 32 day) : ∃ year, yearFromDays day = .ok year := by
  obtain ⟨date,-,-,hyear⟩ := civilFromDays_of_inSigned h
  exact ⟨date.year,hyear⟩

end Years

namespace Date32YearCache

theorem pushYears_succ {first year : ℤ} {years : List ℤ} (h : yearFromDays (first + years.length) = .ok year) (n : ℕ) :
    pushYears first (n + 1) years = pushYears first n (years ++ [year]) := by
  have hstep : pushYear first (.ok (),years) = (.ok (),years ++ [year]) := by
    simp only [pushYear,Except.bind,h]
  rw [pushYears,Function.iterate_succ_apply,hstep]
  rfl

theorem pushYears_ok {first : ℤ} {n : ℕ} {years : List ℤ}
    (hyears : Cached first years)
    (hread : ∀ k, k < years.length + n → InSigned 32 (first + k)) : ∃ years',
      pushYears first n years = (.ok (),years') ∧ years'.length = years.length + n ∧ Cached first years' := by
  induction n generalizing years with
  | zero => exact ⟨years,rfl,(Nat.add_zero _).symm,hyears⟩
  | succ n ih =>
    obtain ⟨year,hyear⟩ := yearFromDays_ok (hread years.length (by omega))
    have hlength : (years ++ [year]).length = years.length + 1 := List.length_append
    obtain ⟨years',hpush,hlength',hyears'⟩ := @ih (years ++ [year]) (by
      intro i y hy
      rcases Nat.lt_trichotomy i years.length with hi | rfl | hi
      · rw [List.getElem?_append_left hi] at hy
        exact hyears i y hy
      · rw [List.getElem?_concat_length,Option.some_inj] at hy
        exact hy ▸ hyear
      · rw [List.getElem?_eq_none (by omega)] at hy
        cases hy) (fun k hk => hread k (by omega))
    exact ⟨years',(pushYears_succ hyear n).trans hpush,by omega,hyears'⟩

theorem yearAt_eq {first : ℤ} {years : List ℤ} {index : ℕ} (hyears : Cached first years)
    (h : index < years.length) : yearAt years index = yearFromDays (first + index) := by
  rw [yearAt,List.getElem?_eq_getElem h,hyears index _ (List.getElem?_eq_getElem h)]
  rfl

/-- A difference of days that does not fit wraps to a negative one. -/
theorem wrapSigned_difference {a b : ℤ} (ha : InSigned 32 a) (hb : InSigned 32 b) (h : b ≤ a) :
    (a - b < 2 ^ 31 → wrapSigned 32 (a - b) = a - b) ∧ (¬ a - b < 2 ^ 31 → wrapSigned 32 (a - b) < 0) := by
  unfold InSigned at ha hb
  constructor
  · intro hfit
    exact wrapSigned_of_mem (by decide) (by unfold InSigned; omega)
  · intro hwide
    unfold wrapSigned
    rw [Int.bmod_def]
    split_ifs <;> omega

theorem yearFromDays_ne_overflow {day : ℤ} (h : InSigned 32 day) : dateOverflow ≠ yearFromDays day := by
  obtain ⟨year,hyear⟩ := yearFromDays_ok h
  rw [hyear]
  simp [dateOverflow,unsupportedSql]

/-- A query answers with the year of its day exactly when the window reaches it, and keeps the window. -/
theorem year_spec {cache : Date32YearCache} (hv : cache.Valid) {day : ℤ} (hd : InSigned 32 day) :
    (cache.year day).2.Valid ∧ ((cache.year day).1 = yearFromDays day ↔ cache.Reaches day) := by
  obtain ⟨first,hfirst⟩ := yearFromDays_ok hd
  have hdropped : ({ cache with years := [], disabled := true } : Date32YearCache).Valid :=
    ⟨hv.baseDay_mem,fun _ _ h => by cases h⟩
  unfold year Reaches
  by_cases hdisabled : cache.disabled = true
  · rw [if_pos hdisabled]
    exact ⟨hv,by simp [hdisabled]⟩
  rw [if_neg hdisabled]
  by_cases hempty : cache.years = []
  · rw [if_pos hempty,hfirst]
    refine ⟨⟨hd,?_⟩,by simp [hempty]⟩
    intro i y hy
    cases i with
    | zero =>
      cases hy
      simpa using hfirst
    | succ i => cases hy
  rw [if_neg hempty]
  simp only [hdisabled,hempty,false_or,Bool.false_eq_true]
  by_cases hbefore : day < cache.baseDay
  · rw [if_pos hbefore]
    obtain ⟨hfit,hwide⟩ := wrapSigned_difference hv.baseDay_mem hd hbefore.le
    have habs : |day - cache.baseDay| = cache.baseDay - day := by
      rw [abs_of_neg (by omega)]
      omega
    rw [habs]
    by_cases hreach : cache.baseDay - day < 2 ^ 31
    · rw [hfit hreach,if_neg (by omega)]
      simp only [hreach,iff_true]
      split_ifs with hspan
      · exact ⟨hdropped,rfl⟩
      · have hbase := hv.baseDay_mem
        unfold InSigned at hd hbase
        obtain ⟨years,hpush,hlength,hyears⟩ := @pushYears_ok day (cache.baseDay - day).toNat []
          (fun _ _ h => by cases h) (fun k hk => by
            simp only [List.length_nil] at hk
            unfold InSigned
            omega)
        have hall : Cached day (years ++ cache.years) := by
          intro i y hy
          rcases Nat.lt_or_ge i years.length with hi | hi
          · rw [List.getElem?_append_left hi] at hy
            exact hyears i y hy
          · rw [List.getElem?_append_right hi] at hy
            have hold := hv.years _ y hy
            have hindex : cache.baseDay + ((i - years.length : ℕ) : ℤ) = day + i := by
              simp only [List.length_nil] at hlength
              omega
            rwa [hindex] at hold
        rw [hpush]
        refine ⟨⟨hd,hall⟩,?_⟩
        simp only [List.length_nil] at hlength
        have hat := @yearAt_eq day (years ++ cache.years) 0 hall (by rw [List.length_append]; omega)
        rw [Nat.cast_zero,add_zero] at hat
        exact hat
    · rw [if_pos (hwide hreach)]
      exact ⟨hv,iff_of_false (yearFromDays_ne_overflow hd) hreach⟩
  · rw [if_neg hbefore]
    obtain ⟨hfit,hwide⟩ := wrapSigned_difference hd hv.baseDay_mem (not_lt.mp hbefore)
    have habs : |day - cache.baseDay| = day - cache.baseDay := abs_of_nonneg (by omega)
    rw [habs]
    by_cases hreach : day - cache.baseDay < 2 ^ 31
    · rw [hfit hreach,if_neg (by omega)]
      simp only [hreach,iff_true]
      have hindex : cache.baseDay + ((day - cache.baseDay).toNat : ℤ) = day := by omega
      split_ifs with hbeyond hspan
      · exact ⟨hdropped,rfl⟩
      · have hbase := hv.baseDay_mem
        unfold InSigned at hd hbase
        obtain ⟨years,hpush,hlength,hyears⟩ := @pushYears_ok cache.baseDay
          ((day - cache.baseDay).toNat + 1 - cache.years.length) cache.years hv.years (fun k hk => by
            unfold InSigned
            omega)
        rw [hpush]
        refine ⟨⟨hv.baseDay_mem,hyears⟩,?_⟩
        have hat := yearAt_eq hyears (by omega : (day - cache.baseDay).toNat < years.length)
        rw [hindex] at hat
        exact hat
      · refine ⟨hv,?_⟩
        rw [yearAt_eq hv.years (by omega),hindex]
    · rw [if_pos (hwide hreach)]
      exact ⟨hv,iff_of_false (yearFromDays_ne_overflow hd) hreach⟩

theorem answers_iff {cache : Date32YearCache} (hv : cache.Valid) {days : List ℤ}
    (hd : ∀ day ∈ days, InSigned 32 day) : cache.answers days = days.map yearFromDays ↔ cache.ReachesAll days := by
  induction days generalizing cache with
  | nil => exact iff_of_true rfl trivial
  | cons day days ih =>
    obtain ⟨hv',hiff⟩ := year_spec hv (hd day (by simp))
    rw [answers,List.map_cons,List.cons.injEq,ReachesAll,hiff,ih hv' fun d h => hd d (by simp [h])]

theorem valid_default : ({} : Date32YearCache).Valid :=
  ⟨by decide,fun _ _ h => by cases h⟩

end Date32YearCache

section Months

/-- Months are counted through the years, and the day is clamped to the month it falls in. -/
theorem addMonths_date (date : CalendarDate) {months year : ℤ} {month : ℕ} (hmonth : 1 ≤ month ∧ month ≤ 12)
    (hcount : year * 12 + month = date.year * 12 + date.month + months) (hyear : InSigned 32 year) :
    addMonths (date.year,date.month,date.day) months = .ok (year,month,min date.day (monthLength year month)) := by
  have hindex : wrapSigned 64 (date.year * 12 + (date.month - 1) + months) = year * 12 + (month - 1) := by
    rw [wrapSigned_of_mem (by decide)]
    · omega
    · unfold InSigned at hyear ⊢
      omega
  have hdiv : (year * 12 + ((month : ℤ) - 1)) / 12 = year := by omega
  have hmod : ((year * 12 + ((month : ℤ) - 1)) % 12).toNat + 1 = month := by omega
  unfold addMonths
  simp only [hindex,hdiv,hmod,checkedSigned_of_mem hyear,daysInMonth_eq hmonth]
  rfl

end Months

section Extract

theorem extractYear_eq {value : ScalarValues} {days : ℤ} (h : scalarAsI64 value = .ok [some days]) :
    extractYear value = (civilFromDays days).map fun date => .int64 [some date.1] := by
  unfold extractYear readRows
  rw [h]
  cases hcivil : civilFromDays days <;> simp [hcivil,Except.map]

/-- The milliseconds of a midnight are read as days, so the years agree at the epoch only. -/
theorem extractYear_midnight {day : ℤ} (hd : InSigned 32 day) :
    extractYear (.date32 [some day]) = extractYear (.timestampMillisecond [some (day * 86400000)]) ↔ day = 0 := by
  rw [extractYear_eq rfl,extractYear_eq rfl]
  constructor
  · intro h
    obtain ⟨date,hdate,hcivil,-⟩ := civilFromDays_of_inSigned hd
    have hrange : -2 ^ 62 ≤ day * 86400000 ∧ day * 86400000 ≤ 2 ^ 62 := by
      unfold InSigned at hd
      omega
    obtain ⟨midnight,hmidnight,-,hcivil'⟩ := civilFromDays_date hrange
    rw [hcivil,hcivil'] at h
    cases hyear : checkedSigned 32 midnight.year with
    | none =>
      rw [hyear] at h
      cases h
    | some year =>
      obtain ⟨-,rfl⟩ := checkedSigned_eq_some.mp hyear
      rw [hyear] at h
      have hyears : date.year = midnight.year := by simpa [Except.map,okOr,Except.bind] using h
      have hday := date.dayNumber_mem
      have hday' := midnight.dayNumber_mem
      rw [← hyears] at hday'
      unfold yearLength at hday hday'
      split_ifs at hday hday' <;> omega
  · rintro rfl
    rfl

end Extract

/-- The calendar agrees with itself: on a day, over a sequence of queries of the cache, on the dates
some months away from another date, and between a date and the timestamp at its midnight. -/
structure CalendarConsistent (queries : List ℤ) (day : ℤ) : Prop where
  civil : ∃ date : CalendarDate, civilFromDays day = .ok (date.year,date.month,date.day) ∧
    daysFromCivil (date.year,date.month,date.day) = day ∧ yearFromDays day = .ok date.year
  cached : Date32YearCache.answers {} queries = queries.map yearFromDays
  months : ∀ (date : CalendarDate) (months year : ℤ) (month : ℕ), 1 ≤ month ∧ month ≤ 12 →
    year * 12 + month = date.year * 12 + date.month + months → InSigned 32 year →
      addMonths (date.year,date.month,date.day) months = .ok (year,month,min date.day (monthLength year month))
  midnight : extractYear (.date32 [some day]) = extractYear (.timestampMillisecond [some (day * 86400000)])

/-- The calendar is consistent exactly when no query lies 2^31 days or more from the window of the
cache and the year is extracted at the epoch. -/
theorem calendarConsistent_iff {queries : List ℤ} {day : ℤ} (hqueries : ∀ query ∈ queries, InSigned 32 query)
    (hday : InSigned 32 day) : CalendarConsistent queries day ↔
      Date32YearCache.ReachesAll {} queries ∧ day = 0 := by
  rw [← Date32YearCache.answers_iff Date32YearCache.valid_default hqueries,← extractYear_midnight hday]
  constructor
  · intro h
    exact ⟨h.cached,h.midnight⟩
  · rintro ⟨hcached,hmidnight⟩
    obtain ⟨date,hdate,hcivil,hyear⟩ := civilFromDays_of_inSigned hday
    exact ⟨⟨date,hcivil,(daysFromCivil_date date).trans hdate,hyear⟩,hcached,
      fun date _ _ _ hmonth hcount hfit => addMonths_date date hmonth hcount hfit,hmidnight⟩

theorem calendarConsistent_epoch : CalendarConsistent [0,-1,730] 0 :=
  (calendarConsistent_iff (by decide) (by decide)).mpr ⟨⟨.inr (.inl rfl),.inr (.inr (by decide)),
    .inr (.inr (by decide)),trivial⟩,rfl⟩

/-- The first and the last day are 2^32 - 1 days apart, and a midnight in 1970 lies in the year 238525. -/
theorem calendar_inconsistent :
    Date32YearCache.answers {} [2147483647,-2147483648] = [.ok 5881580,dateOverflow] ∧
      yearFromDays (-2147483648) = .ok (-5877641) ∧ extractYear (.date32 [some 1]) = .ok (.int64 [some 1970]) ∧
      extractYear (.timestampMillisecond [some 86400000]) = .ok (.int64 [some 238525]) :=
  ⟨rfl,rfl,rfl,rfl⟩

end Dodam.Sql
