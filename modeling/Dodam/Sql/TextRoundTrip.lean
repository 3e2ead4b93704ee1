import Dodam.Sql.DateYears
import Dodam.Sql.DecimalCasts

/-! # Values printed and read again

Values are cast to texts and the texts back to the type of the values.
-/
namespace Dodam.Sql
open Foundation Execution

/-- The values are of the type that a target, in lower case, names. -/
def ScalarValues.Typed (target : String) : ScalarValues → Prop
  | .int64 values => target ∈ ["bigint","int8","integer","int"] ∧ ∀ v, some v ∈ values → InSigned 64 v
  | .decimal128 values precision scale => parseDecimalCastTarget target = .ok (some (precision,scale)) ∧
      ∀ v, some v ∈ values → |v| < 10 ^ precision.toNat
  | .date32 values => target = "date" ∧ ∀ v, some v ∈ values → InSigned 32 v
  | .timestampMillisecond values =>
    target ∈ ["timestamp","timestamp without time zone","timestamp with time zone","timestamptz"] ∧
      ∀ v, some v ∈ values → InSigned 64 v
  | _ => False

/-- No year is negative, and the days of timestamps are dates. -/
def ScalarValues.YearsReadable : ScalarValues → Prop
  | .date32 values => ∀ day, some day ∈ values → -719528 ≤ day
  | .timestampMillisecond values => ∀ millis, some millis ∈ values →
      -719528 ≤ millis / 86400000 ∧ millis / 86400000 < 2 ^ 31
  | _ => True

def castThroughText (host : ScalarHost) (value : ScalarValues) (target : String) : Result ScalarValues := do
  castEvaluatedScalar host (← castEvaluatedScalar host value "varchar") target

section Rows

theorem readRows_map_iff {α β : Type} {read : β → Result α} {text : α → β} {values : List (Option α)} :
    readRows read (values.map (Option.map text)) = .ok values ↔ ∀ v, some v ∈ values → read (text v) = .ok v := by
  unfold readRows
  rw [mapM_ok_iff,List.forall₂_map_left_iff,List.forall₂_same]
  constructor
  · intro h v hv
    obtain ⟨r,hr,heq⟩ := map_eq_ok_iff.mp (h (some v) hv)
    exact Option.some.inj heq ▸ hr
  · intro h value hvalue
    cases value with
    | none => rfl
    | some v => exact map_eq_ok_iff.mpr ⟨v,h v hvalue,rfl⟩

theorem okOr_some {α : Type} (a : α) (error : Result α) : okOr (some a) error = .ok a := rfl

end Rows

section Dates
variable {month day : ℕ}

theorem splitAll_monthDay : splitAll '-' ((zeroPadded 2 month).toList ++ '-' :: (zeroPadded 2 day).toList) =
    [(zeroPadded 2 month).toList,(zeroPadded 2 day).toList] := by
  rw [splitAll_append (dash_notMem fun _ => isDigit_zeroPadded),
    splitAll_of_notMem (dash_notMem fun _ => isDigit_zeroPadded)]

/-- A date of the calendar is read back unless the sign of its year is taken for a separator. -/
theorem parseYmd_dateText (date : CalendarDate) (hyear : InSigned 32 date.year) {civil : Civil} :
    parseYmd (dateText (date.year,date.month,date.day)) = .ok civil ↔
      0 ≤ date.year ∧ civil = (date.year,date.month,date.day) := by
  have hlength : date.day ≤ 31 := date.day_mem.2.trans (by unfold monthLength; split_ifs <;> decide)
  have hmonth := date.month_mem
  have hday := date.day_mem
  rw [← daysInMonth_eq hmonth] at hday
  have hmonth' : parseUnsigned 32 (zeroPadded 2 date.month).toList = some date.month :=
    parseUnsigned_zeroPadded (by simp [maxUnsigned]; omega)
  have hday' : parseUnsigned 32 (zeroPadded 2 date.day).toList = some date.day :=
    parseUnsigned_zeroPadded (by simp [maxUnsigned]; omega)
  have hvalid : ¬(([] : List (List Char)) ≠ [] ∨ ¬(1 ≤ date.month ∧ date.month ≤ 12) ∨ date.day = 0 ∨
      daysInMonth date.year date.month < date.day) := by
    rintro (h | h | h | h)
    · exact h rfl
    · exact h hmonth
    · omega
    · exact absurd hday.2 (not_le.mpr h)
  generalize date.year = year at hyear hvalid ⊢
  cases year with
  | ofNat n =>
    have hyear' : parseSigned 32 (zeroPadded 4 (Int.ofNat n)).toList = some (n : ℤ) := parseSigned_zeroPadded hyear
    have hdash : '-' ∉ (zeroPadded 4 (Int.ofNat n)).toList := dash_notMem fun _ => isDigit_zeroPadded
    have hread : parseYmd (dateText (Int.ofNat n,date.month,date.day)) = .ok (Int.ofNat n,date.month,date.day) := by
      unfold parseYmd
      rw [toList_dateText,splitAll_append hdash,splitAll_monthDay]
      dsimp only
      rw [hyear',List.head?_cons,Option.bind_some,hmonth',List.tail_cons,List.head?_cons,Option.bind_some,hday']
      exact if_neg hvalid
    rw [hread]
    exact ⟨fun h => ⟨Int.natCast_nonneg n,(Except.ok.inj h).symm⟩,fun h => h.2 ▸ rfl⟩
  | negSucc n =>
    obtain ⟨digits,htext,hdigits⟩ := zeroPadded_negSucc 4 n
    unfold parseYmd
    rw [toList_dateText,htext,List.cons_append,splitAll_cons_self]
    exact iff_of_false (fun h => unsupportedSql_ne_ok _ _ h) fun h => absurd h.1 (not_le.mpr (Int.negSucc_lt_zero n))

theorem parseDate32Days_dateText {days : ℤ} (hdays : InCalendar days) : ∃ date, civilFromDays days = .ok date ∧
    (∀ c ∈ (dateText date).toList, isDateChar c = true) ∧ ∀ r, parseDate32Days (dateText date) = .ok r ↔
      r = days ∧ InSigned 32 days ∧ -719528 ≤ days := by
  obtain ⟨year,month,day,hcivil,-,-,-,-,-,hyear,hera⟩ := civilFromDays_of_mem hdays
  have hrange : -2 ^ 62 ≤ days ∧ days ≤ 2 ^ 62 := by
    unfold InCalendar at hdays
    omega
  obtain ⟨date,hdate,-,hcivil'⟩ := civilFromDays_date hrange
  obtain ⟨year',hyear',hcivil'⟩ := bind_eq_ok_iff.mp (hcivil'.symm.trans hcivil)
  obtain ⟨-,rfl⟩ := checkedSigned_eq_some.mp ((okOr_eq_ok (unsupportedSql_ne_ok _)).mp hyear')
  obtain ⟨rfl,rfl,rfl⟩ : date.year = year ∧ date.month = month ∧ date.day = day := by
    simpa using hcivil'
  refine ⟨_,hcivil,isDateChar_dateText,fun r => ?_⟩
  unfold parseDate32Days
  rw [except_bind_eq_ok]
  simp only [parseYmd_dateText date hyear,okOr_eq_ok (unsupportedSql_ne_ok _),checkedSigned_eq_some]
  have hcount : daysFromCivil (date.year,date.month,date.day) = days := (daysFromCivil_date date).trans hdate
  constructor
  · rintro ⟨_,⟨hpos,rfl⟩,hin,rfl⟩
    rw [hcount] at hin ⊢
    exact ⟨rfl,hin,hera.mp hpos⟩
  · rintro ⟨rfl,hin,hpos⟩
    exact ⟨_,⟨hera.mpr hpos,rfl⟩,by rwa [hcount],hcount⟩

theorem parseDate32Days_formatDate32Days {days : ℤ} (hdays : InSigned 32 days) :
    parseDate32Days (formatDate32Days days) = .ok days ↔ -719528 ≤ days := by
  obtain ⟨date,hcivil,-,hread⟩ := parseDate32Days_dateText (inCalendar_of_days hdays)
  unfold formatDate32Days
  rw [hcivil]
  exact (hread days).trans ⟨fun h => h.2.2,fun h => ⟨rfl,hdays,h⟩⟩

end Dates

section Decimals
variable {precision : UInt8} {scale : Int8}

theorem length_zeroPadded {width n : ℕ} (h : n < 10 ^ width) (hwidth : 0 < width) :
    (zeroPadded width n).toList.length = width := by
  have hdigits : (Nat.toDigits 10 n).length ≤ width := (Nat.length_toDigits_le_iff (by decide) hwidth).mpr h
  rw [zeroPadded_natCast,List.length_append,List.length_replicate]
  omega

def scaledNumeral (value : ℤ) (digits : ℕ) : Numeral where
  negative := value < 0
  whole := Nat.toDigits 10 (value.natAbs / 10 ^ digits)
  fractional := if digits = 0 then [] else (zeroPadded digits (value.natAbs % 10 ^ digits : ℕ)).toList
  whole_ne := Nat.toDigits_ne_nil
  whole_digits := isDigit_toDigits
  fractional_digits := fun c hc => by
    split_ifs at hc
    · cases hc
    · exact isDigit_zeroPadded hc

theorem scaledNumeral_value (value : ℤ) (digits : ℕ) : (scaledNumeral value digits).value = value / 10 ^ digits := by
  have hfraction : (digitsValue (scaledNumeral value digits).fractional : ℚ) /
      10 ^ (scaledNumeral value digits).fractional.length = (value.natAbs % 10 ^ digits : ℕ) / 10 ^ digits := by
    unfold scaledNumeral
    dsimp only
    split_ifs with hzero
    · rw [hzero,pow_zero,Nat.mod_one]
      rfl
    · rw [digitsValue_zeroPadded,length_zeroPadded (Nat.mod_lt _ (by positivity)) (Nat.pos_of_ne_zero hzero)]
  have hmagnitude : (scaledNumeral value digits).magnitude = (value.natAbs : ℚ) / 10 ^ digits := by
    have hwhole : digitsValue (scaledNumeral value digits).whole = value.natAbs / 10 ^ digits := digitsValue_toDigits _
    have hsum : (value.natAbs : ℚ) = (value.natAbs / 10 ^ digits : ℕ) * 10 ^ digits + (value.natAbs % 10 ^ digits : ℕ) := by
      exact_mod_cast (Nat.div_add_mod' value.natAbs (10 ^ digits)).symm
    rw [Numeral.magnitude,hfraction,hwhole]
    field_simp
    exact hsum.symm
  have hsign : (scaledNumeral value digits).negative = decide (value < 0) := rfl
  rw [Numeral.value,hmagnitude,hsign]
  by_cases hneg : value < 0
  · rw [decide_eq_true hneg,if_pos rfl,Nat.cast_natAbs,abs_of_neg hneg]
    push_cast
    ring
  · rw [decide_eq_false hneg,if_neg Bool.false_ne_true,Nat.cast_natAbs,abs_of_nonneg (not_lt.mp hneg)]

theorem formatDecimal128Value_spells (hscale : 0 ≤ scale.toInt) (value : ℤ) :
    (scaledNumeral value scale.toInt.toNat).Spells isWhitespace (formatDecimal128Value value scale).toList := by
  have hsign : if (scaledNumeral value scale.toInt.toNat).negative then (if value < 0 then ['-'] else []) = ['-']
      else (if value < 0 then ['-'] else []) = [] ∨ (if value < 0 then ['-'] else []) = ['+'] := by
    by_cases hneg : value < 0
    · simp [scaledNumeral,hneg]
    · simp [scaledNumeral,hneg]
  unfold formatDecimal128Value
  by_cases hzero : scale.toInt = 0
  · refine ⟨[],if value < 0 then ['-'] else [],[],[],?_,List.forall_mem_nil _,List.forall_mem_nil _,hsign,.inr ⟨rfl,?_⟩⟩
    · rw [if_pos hzero.le,hzero]
      have hwhole : (scaledNumeral value (0 : ℤ).toNat).whole = Nat.toDigits 10 value.natAbs :=
        congrArg (Nat.toDigits 10) (Nat.div_one value.natAbs)
      have hone : value * 10 ^ (0 : ℤ).natAbs = value := mul_one value
      rw [hwhole,hone,List.append_nil,List.append_nil,List.nil_append]
      cases value with
      | ofNat m => exact toList_toString_ofNat m
      | negSucc m =>
        rw [if_pos (Int.negSucc_lt_zero m)]
        exact toList_toString_negSucc m
    · rw [hzero]
      rfl
  · refine ⟨[],if value < 0 then ['-'] else [],'.' :: (scaledNumeral value scale.toInt.toNat).fractional,[],?_,
      List.forall_mem_nil _,List.forall_mem_nil _,hsign,.inl rfl⟩
    have hquotient : |value| / 10 ^ scale.toInt.toNat = (value.natAbs / 10 ^ scale.toInt.toNat : ℕ) := by
      rw [Int.abs_eq_natAbs]
      push_cast
      rfl
    have hrest : |value| % 10 ^ scale.toInt.toNat = (value.natAbs % 10 ^ scale.toInt.toNat : ℕ) := by
      rw [Int.abs_eq_natAbs]
      push_cast
      rfl
    rw [if_neg (by omega)]
    dsimp only
    rw [hquotient,hrest]
    have hwhole := toList_toString_ofNat (value.natAbs / 10 ^ scale.toInt.toNat)
    rw [Int.ofNat_eq_natCast] at hwhole
    have hsignText : (if value < 0 then "-" else "").toList = if value < 0 then ['-'] else [] := by
      split_ifs <;> rfl
    have hfractional : (scaledNumeral value scale.toInt.toNat).fractional =
        (zeroPadded scale.toInt.toNat (value.natAbs % 10 ^ scale.toInt.toNat : ℕ)).toList := if_neg (by omega)
    have hpoint : ".".toList = ['.'] := rfl
    rw [String.toList_append,String.toList_append,String.toList_append,hsignText,hwhole,hfractional,hpoint]
    simp only [List.append_assoc,List.nil_append,List.append_nil,List.singleton_append]
    rfl

theorem parseDecimalCastTarget_legal {target : String}
    (h : parseDecimalCastTarget target = .ok (some (precision,scale))) : LegalDecimal precision scale := by
  unfold parseDecimalCastTarget at h
  dsimp only at h
  split at h
  · cases h
  · split_ifs at h
    · cases h
      exact ⟨by decide,by decide⟩
    · cases h
    · split at h
      · obtain ⟨p,-,h⟩ := except_bind_eq_ok.mp h
        obtain ⟨s,-,h⟩ := except_bind_eq_ok.mp h
        split_ifs at h with hbad
        · cases h
        · cases h
          have hp : (UInt8.ofNat p).toNat = p := UInt8.toNat_ofNat_of_lt' (by unfold UInt8.size; omega)
          have hs : (Int8.ofInt s).toInt = s := Int8.toInt_ofInt_of_le (by omega) (by omega)
          exact ⟨by omega,by omega⟩
      · cases h

end Decimals

section Times

def isTimeChar (c : Char) : Bool := c.isDigit || c = ':' || c = '.'

theorem splitTimestampTimezone_plain (value : String) {time : List Char} (h : ∀ c ∈ time, isTimeChar c = true) :
    splitTimestampTimezone value time = .ok (time,0) := by
  have hlast : time.getLast? ≠ some 'Z' := fun hz => absurd (h 'Z' (List.mem_of_getLast? hz)) (by decide)
  have hsigns : ((List.range time.length).filter fun index => 0 < index && time[index]?.any isSign) = [] := by
    refine List.filter_eq_nil_iff.mpr fun index hindex => ?_
    have hlt := List.mem_range.mp hindex
    have hchar := h _ (List.getElem_mem hlt)
    rw [List.getElem?_eq_getElem hlt,Option.any_some]
    generalize time[index] = c at hchar
    have hsign : isSign c = false := by
      rw [isSign,Bool.or_eq_false_iff]
      refine ⟨?_,?_⟩
      all_goals
        refine decide_eq_false ?_
        rintro rfl
        exact absurd hchar (by decide)
    rw [hsign,Bool.and_false]
    exact Bool.false_ne_true
  unfold splitTimestampTimezone
  rw [if_neg hlast,hsigns]

theorem sliceTo_digits {text : List Char} (h : ∀ c ∈ text, c.isDigit = true) (n : ℕ) :
    sliceTo n text = .ok (text.take n) := by
  induction text generalizing n with
  | nil => rw [sliceTo,List.take_nil]
  | cons c text ih =>
    have hsize : c.utf8Size = 1 := by
      have hle : c.val.toNat ≤ 57 := (Char.isDigit_iff_toNat.mp (h c List.mem_cons_self)).2
      exact Char.utf8Size_eq_one_iff.mpr (UInt32.le_iff_toNat_le.mpr (hle.trans (by decide)))
    cases n with
    | zero => rw [sliceTo,if_pos rfl,List.take_zero]
    | succ n =>
      rw [sliceTo,if_neg (Nat.succ_ne_zero n),hsize,if_neg (by omega),Nat.add_sub_cancel,
        ih (fun d hd => h d (List.mem_cons_of_mem c hd)) n]
      rfl

theorem timestampFraction_zeroPadded (value : String) {millis : ℕ} (h : millis < 1000) :
    timestampFraction value (zeroPadded 3 millis).toList = .ok (millis : ℤ) := by
  have hlength : (zeroPadded 3 millis).toList.length = 3 := length_zeroPadded h (by decide)
  have hparse : parseSigned 64 (zeroPadded 3 millis).toList = some (millis : ℤ) :=
    parseSigned_zeroPadded (by unfold InSigned; omega)
  unfold timestampFraction
  rw [if_neg (by rw [List.isEmpty_iff]; exact zeroPadded_ne_nil 3 millis),
    sliceTo_digits (fun _ => isDigit_zeroPadded),List.take_of_length_le hlength.le,except_bind_ok,hparse]
  rw [hlength]
  exact congrArg Except.ok (mul_one _)

/-- The fraction of a second behind the seconds, where it is not zero. -/
def fractionText (millis : ℕ) : List Char := if millis = 0 then [] else '.' :: (zeroPadded 3 millis).toList

theorem isTimeChar_time {hour minute second millis : ℕ} : ∀ c ∈ (zeroPadded 2 hour).toList ++ ':' ::
    ((zeroPadded 2 minute).toList ++ ':' :: ((zeroPadded 2 second).toList ++ fractionText millis)), isTimeChar c = true := by
  have hpadded : ∀ width n : ℕ, ∀ c ∈ (zeroPadded width n).toList, isTimeChar c = true := fun width n c hc => by
    rw [isTimeChar,isDigit_zeroPadded hc]
    rfl
  have hfraction : ∀ c ∈ fractionText millis, isTimeChar c = true := by
    unfold fractionText
    split_ifs
    · exact List.forall_mem_nil _
    · exact List.forall_mem_cons.mpr ⟨rfl,hpadded 3 millis⟩
  simp only [List.forall_mem_append,List.forall_mem_cons]
  exact ⟨hpadded 2 hour,rfl,hpadded 2 minute,rfl,hpadded 2 second,hfraction⟩

theorem parseTimestampMillisValue_text {value : String} {date : List Char} {hour minute second millis : ℕ}
    (hdate : ∀ c ∈ date, isDateChar c = true) (hhour : hour < 24) (hminute : minute < 60) (hsecond : second < 60)
    (hmillis : millis < 1000)
    (h : value.toList = date ++ ' ' :: ((zeroPadded 2 hour).toList ++ ':' ::
      ((zeroPadded 2 minute).toList ++ ':' :: ((zeroPadded 2 second).toList ++ fractionText millis)))) {r : ℤ} :
    parseTimestampMillisValue value = .ok r ↔ ∃ days, parseDate32Days (String.ofList date) = .ok days ∧
      r = days * 86400000 + (hour * 3600000 + minute * 60000 + second * 1000 + millis : ℤ) ∧ InSigned 64 r := by
  have hblank : ' ' ∉ date := fun hmem => ne_dateChar (hdate _ hmem) rfl rfl
  have hcolon : ∀ {n : ℕ}, ':' ∉ (zeroPadded 2 n).toList := fun hmem => absurd (isDigit_zeroPadded hmem) (by decide)
  have hpoint : '.' ∉ (zeroPadded 2 second).toList := fun hmem => absurd (isDigit_zeroPadded hmem) (by decide)
  have hread : ∀ {n : ℕ}, n < 60 → parseSigned 64 (zeroPadded 2 n).toList = some (n : ℤ) := fun hn =>
    parseSigned_zeroPadded (by unfold InSigned; omega)
  have hparts : ∃ parts, splitAll ':' ((zeroPadded 2 hour).toList ++ ':' ::
      ((zeroPadded 2 minute).toList ++ ':' :: ((zeroPadded 2 second).toList ++ fractionText millis))) = parts ∧
      parts.head? = some (zeroPadded 2 hour).toList ∧ parts[1]? = some (zeroPadded 2 minute).toList ∧
      parts[2]? = some ((zeroPadded 2 second).toList ++ fractionText millis) ∧ ¬3 < parts.length := by
    have hrest : ':' ∉ (zeroPadded 2 second).toList ++ fractionText millis := by
      rw [List.mem_append,not_or]
      refine ⟨hcolon,?_⟩
      unfold fractionText
      split_ifs
      · exact List.not_mem_nil
      · exact fun hmem => (List.mem_cons.mp hmem).elim (by decide) fun hmem => absurd (isDigit_zeroPadded hmem) (by decide)
    rw [splitAll_append hcolon,splitAll_append hcolon,splitAll_of_notMem hrest]
    exact ⟨_,rfl,rfl,rfl,rfl,lt_irrefl 3⟩
  have hfraction : ∃ millisText, (splitOnce '.' ((zeroPadded 2 second).toList ++ fractionText millis)).getD
      ((zeroPadded 2 second).toList ++ fractionText millis,[]) = ((zeroPadded 2 second).toList,millisText) ∧
      timestampFraction value millisText = .ok (millis : ℤ) := by
    unfold fractionText
    split_ifs with hzero
    · rw [List.append_nil,splitOnce_eq_none.mpr hpoint,hzero]
      exact ⟨[],rfl,rfl⟩
    · rw [splitOnce_append hpoint]
      exact ⟨_,rfl,timestampFraction_zeroPadded value hmillis⟩
  obtain ⟨millisText,hsplit,hmillis'⟩ := hfraction
  obtain ⟨parts,hparts,hfirst,hnext,hlast,hlength⟩ := hparts
  unfold parseTimestampMillisValue
  dsimp only
  rw [h,splitOnce_append hblank,Option.some_or,Option.getD_some]
  rw [splitTimestampTimezone_plain value isTimeChar_time,except_bind_ok,except_bind_eq_ok]
  dsimp only
  rw [hparts]
  simp only [parseTimestampPart,hfirst,hnext,hlast,okOr_some,except_bind_ok,hread (hhour.trans (by decide)),hread hminute,
    hread hsecond,if_neg hlength,hsplit,hmillis']
  refine exists_congr fun days => and_congr_right fun _ => ?_
  rw [if_neg (by omega),okOr_eq_ok (unsupportedSql_ne_ok _),checkedSigned_eq_some,sub_zero]
  constructor
  · rintro ⟨hin,rfl⟩
    exact ⟨rfl,hin⟩
  · rintro ⟨rfl,hin⟩
    exact ⟨hin,rfl⟩

theorem toList_formatTimestampMillis {millis : ℤ} {date : Civil} (hdate : civilFromDays (millis / 86400000) = .ok date) :
    ∃ hour minute second rest : ℕ, hour < 24 ∧ minute < 60 ∧ second < 60 ∧ rest < 1000 ∧
      (millis % 86400000 = hour * 3600000 + minute * 60000 + second * 1000 + rest) ∧
      (formatTimestampMillis millis).toList = (dateText date).toList ++ ' ' :: ((zeroPadded 2 hour).toList ++ ':' ::
        ((zeroPadded 2 minute).toList ++ ':' :: ((zeroPadded 2 second).toList ++ fractionText rest))) := by
  obtain ⟨n,hn⟩ := Int.eq_ofNat_of_zero_le (Int.emod_nonneg millis (by decide : (86400000 : ℤ) ≠ 0))
  have hcast : ((n : ℤ) / 1000 / 3600 = (n / 3600000 : ℕ)) ∧ ((n : ℤ) / 1000 % 3600 / 60 = (n / 60000 % 60 : ℕ)) ∧
      ((n : ℤ) / 1000 % 60 = (n / 1000 % 60 : ℕ)) ∧ ((n : ℤ) % 1000 = (n % 1000 : ℕ)) := by omega
  obtain ⟨hhour,hminute,hsecond,hrest⟩ := hcast
  refine ⟨n / 3600000,n / 60000 % 60,n / 1000 % 60,n % 1000,by omega,by omega,by omega,by omega,by omega,?_⟩
  unfold formatTimestampMillis fractionText
  dsimp only
  rw [hdate,hn]
  dsimp only
  rw [hhour,hminute,hsecond,hrest]
  by_cases hzero : n % 1000 = 0
  · rw [if_pos (Nat.cast_eq_zero.mpr hzero),if_pos hzero]
    simp
  · rw [if_neg (Nat.cast_ne_zero.mpr hzero),if_neg hzero]
    simp

theorem parseTimestamp_formatTimestamp {millis : ℤ} (hmillis : InSigned 64 millis) :
    parseTimestampMillisValue (formatTimestampMillis millis) = .ok millis ↔
      -719528 ≤ millis / 86400000 ∧ millis / 86400000 < 2 ^ 31 := by
  have hdays : InCalendar (millis / 86400000) := by
    unfold InSigned at hmillis
    unfold InCalendar
    omega
  obtain ⟨date,hcivil,hchars,hread⟩ := parseDate32Days_dateText hdays
  obtain ⟨hour,minute,second,rest,hhour,hminute,hsecond,hrest,hsum,htext⟩ := toList_formatTimestampMillis hcivil
  rw [parseTimestampMillisValue_text hchars hhour hminute hsecond hrest htext,String.ofList_toList]
  simp only [hread]
  constructor
  · rintro ⟨days,⟨rfl,hin,hyear⟩,-,-⟩
    exact ⟨hyear,hin.2⟩
  · rintro ⟨hyear,hlt⟩
    refine ⟨_,⟨rfl,⟨?_,hlt⟩,hyear⟩,?_,hmillis⟩
    · norm_num
      omega
    · omega

end Times

section Casts
variable (host : ScalarHost)

theorem map_eq_ok_of_injective {α β : Type} {f : α → β} (hf : ∀ a b, f a = f b → a = b) {x : Result α} {a : α} :
    x.map f = .ok (f a) ↔ x = .ok a := by
  rw [map_eq_ok_iff]
  constructor
  · rintro ⟨b,hb,heq⟩
    exact hf b a heq ▸ hb
  · exact fun h => ⟨a,h,rfl⟩

/-- Values of a type survive the text exactly when their years do. -/
theorem castThroughText_iff {value : ScalarValues} {target : String}
    (h : value.Typed (String.ofList (target.toList.map Char.toLower))) :
    castThroughText host value target = .ok value ↔ value.YearsReadable := by
  have hvarchar : castEvaluatedScalar host value "varchar" = .ok (.utf8 (scalarAsUtf8 value)) := by
    unfold castEvaluatedScalar
    exact if_pos (by decide)
  unfold castThroughText
  rw [hvarchar,except_bind_ok]
  unfold castEvaluatedScalar
  generalize String.ofList (target.toList.map Char.toLower) = t at h ⊢
  cases value with
  | int64 values =>
    obtain ⟨ht,hvalues⟩ := h
    have hnone : t ∉ ["varchar","text","string","char","character varying"] ∧ parseDecimalCastTarget t = .ok none := by
      revert t
      decide
    rw [if_neg hnone.1,hnone.2,except_bind_ok]
    rw [if_pos ht,map_eq_ok_of_injective fun _ _ => ScalarValues.int64.inj]
    exact iff_of_true (readRows_map_iff.mpr fun v hv => by rw [parseSigned_toString (hvalues v hv)]; rfl) trivial
  | decimal128 values precision scale =>
    obtain ⟨ht,hvalues⟩ := h
    have htext : t ∉ ["varchar","text","string","char","character varying"] := by
      intro hmem
      have hnone : parseDecimalCastTarget t = .ok none := by
        clear ht
        revert t
        decide
      rw [hnone] at ht
      cases ht
    have hlegal := parseDecimalCastTarget_legal ht
    have hread : ∀ v, some v ∈ values → castToDecimal precision scale (.utf8 [some (formatDecimal128Value v scale)]) =
        .ok [some v] := by
      intro v hv
      have hcast := castsTo_text hlegal (formatDecimal128Value_spells hlegal.scale_mem.1 v)
      rw [scaledNumeral_value] at hcast
      refine (hcast v).mpr ⟨?_,hvalues v hv⟩
      rw [div_mul_cancel₀ _ (by positivity),halfAway_intCast]
    rw [if_neg htext,ht,except_bind_ok]
    dsimp only
    refine iff_of_true (except_bind_eq_ok.mpr ⟨values,?_,rfl⟩) trivial
    exact readRows_map_iff.mpr fun v hv => readRows_singleton.mp (hread v hv)
  | date32 values =>
    obtain ⟨rfl,hvalues⟩ := h
    have hnone : parseDecimalCastTarget "date" = .ok none := by decide
    rw [if_neg (by decide),hnone,except_bind_ok]
    dsimp only
    rw [if_neg (by decide),if_neg (by decide),if_pos rfl,map_eq_ok_of_injective fun _ _ => ScalarValues.date32.inj]
    refine readRows_map_iff.trans (forall₂_congr fun day hday => ?_)
    exact parseDate32Days_formatDate32Days (hvalues day hday)
  | timestampMillisecond values =>
    obtain ⟨ht,hvalues⟩ := h
    have hnone : t ∉ ["varchar","text","string","char","character varying"] ∧ parseDecimalCastTarget t = .ok none ∧
        t ∉ ["bigint","int8","integer","int"] ∧ t ∉ ["double","float8","float","real"] ∧ t ≠ "date" := by
      revert t
      decide
    obtain ⟨htext,hdecimal,hint,hfloat,hdate⟩ := hnone
    rw [if_neg htext,hdecimal,except_bind_ok]
    dsimp only
    rw [if_neg hint,if_neg hfloat,if_neg hdate,if_pos ht,
      map_eq_ok_of_injective fun _ _ => ScalarValues.timestampMillisecond.inj]
    refine readRows_map_iff.trans (forall₂_congr fun millis hmillis => ?_)
    exact parseTimestamp_formatTimestamp (hvalues millis hmillis)
  | _ => exact h.elim

end Casts

/-- The last millisecond before 1970, and a NULL. -/
theorem castThroughText_millisecond :
    castThroughText asciiHost (.timestampMillisecond [some (-1),none]) "TIMESTAMP" =
      .ok (.timestampMillisecond [some (-1),none]) := by
  have hvalues : ∀ v, some v ∈ [some (-1 : ℤ),none] → v = -1 := by simp
  have htyped : (ScalarValues.timestampMillisecond [some (-1),none]).Typed
      (String.ofList ("TIMESTAMP".toList.map Char.toLower)) :=
    ⟨by decide,fun v hv => hvalues v hv ▸ (by decide : InSigned 64 (-1))⟩
  refine (castThroughText_iff asciiHost htyped).mpr fun v hv => ?_
  rw [hvalues v hv]
  decide

/-- The day before the year 0 is printed with a sign that its reader takes for a separator. -/
theorem castThroughText_negative_year :
    castEvaluatedScalar asciiHost (.date32 [some (-719529)]) "varchar" = .ok (.utf8 [some "-001-12-31"]) ∧
      (castThroughText asciiHost (.date32 [some (-719529)]) "date").isOk = false ∧
      (castThroughText asciiHost (.timestampMillisecond [some (-62167219200001)]) "timestamp").isOk = false := by
  refine ⟨rfl,?_,?_⟩ <;> decide +kernel

end Dodam.Sql
