import Dodam.Sql.SubqueryRewrite

/-! # Subqueries compared through literals

A predicate on a column whose subquery has been turned into literals has, in
every row, the truth value it has on the subquery's own values, provided that
every cell reads exactly; and a comparison with one cell has it only then.
-/
namespace Dodam.Sql
open Foundation Execution

section Literals
variable (floats : Floats)

def Cell.literal : Cell → Result LiteralValue
  | .null => .ok .null
  | .boolean value => .ok (.boolean value)
  | .integer value => .ok (.int64 value)
  | .decimal value scale => .ok (.float64 (floats.ofDecimal value scale))
  | .double display => .ok (.float64 display)
  | .date days => (civilFromDays days.toInt).map fun date => .utf8 (dateText date)
  | .dateTime millis => (civilFromDays (millis.toInt.tdiv 86400000)).map fun date => .utf8 (dateText date)
  | .text value => .ok (.utf8 value)
  | .unread => unsupportedSql ""

def typedLiteral (type : TestedType) (column : String) (literal : LiteralValue) : Result (Datum String) :=
  match type with
  | .int32 => (literal.asI32 column).map fun value : ℤ => .number value
  | .int64 => (literal.asI64 column).map fun value : ℤ => .number value
  | .uint64 => (literal.asU64 column).map fun value : ℤ => .number value
  | .boolean => (literal.asBool column).map .boolean
  | .date32 => (dateLiteralAsI32 literal column).map fun value : ℤ => .instant (value * 86400)
  | .date64 => (dateLiteralAsI64 literal column).map fun value : ℤ => .instant (value / 1000)
  | .scaled type => (scaledLiteral type literal column).map (scaledDatum type)
  | .utf8 => .ok (.text literal.asStr)
  | .float64 => (literalAsDouble floats column literal).map .double

variable {floats} {column : String}

theorem okOr_invalidComparison {α : Type} {value : Option α} {text : String} {a : α} :
    okOr value (invalidComparison column text) = .ok a ↔ value = some a := okOr_eq_ok (invalidFilter_ne_ok _)

theorem guarded_bind {p : Prop} [Decidable p] {α : Type} {a b : α} {f : α → Option α} :
    (if p then some a else none).bind f = some b ↔ p ∧ f a = some b := by
  split_ifs with h
  · simp [h]
  · simp [h]

theorem guarded_checked {p : Prop} [Decidable p] {w : ℕ} {x y : ℤ} :
    (if p then checkedSigned w x else none) = some y ↔ p ∧ InSigned w x ∧ x = y := by
  split_ifs with h
  · simp [h,checkedSigned_eq_some]
  · simp [h]

theorem exists_ok_map {α β : Type} {x : Result α} {f : α → β} {a : α} {b : β} {p : Prop}
    (h : ∀ v, x = .ok v ↔ p ∧ a = v) : x.map f = .ok b ↔ p ∧ b = f a := by
  rw [map_eq_ok_iff]
  constructor
  · rintro ⟨v,hv,rfl⟩
    obtain ⟨hp,rfl⟩ := (h v).mp hv
    exact ⟨hp,rfl⟩
  · rintro ⟨hp,rfl⟩
    exact ⟨a,(h a).mpr ⟨hp,rfl⟩,rfl⟩

theorem units_eq {days v k : ℤ} {units : ℚ} (hunits : units = k) (hk : k ≠ 0) :
    (v : ℚ) / units = days * 86400 ↔ days * 86400 * k = v := by
  rw [hunits,div_eq_iff (Int.cast_ne_zero.mpr hk)]
  constructor
  · intro h
    exact_mod_cast h.symm
  · rintro rfl
    push_cast
    rfl

theorem exists_perSecond (unit : TimeUnit) : ∃ k : ℤ, unit.perSecond = k ∧ k ≠ 0 := by
  cases unit with
  | second => exact ⟨1,by norm_num [TimeUnit.perSecond],by decide⟩
  | millisecond => exact ⟨1000,by norm_num [TimeUnit.perSecond],by decide⟩
  | microsecond => exact ⟨1000000,by norm_num [TimeUnit.perSecond],by decide⟩
  | nanosecond => exact ⟨1000000000,by norm_num [TimeUnit.perSecond],by decide⟩

theorem timestampLiteralAsI64_midnight {days : ℤ} {text : String} {unit : TimeUnit} {v : ℤ}
    (hmillis : parseTimestampMillis text.toList = if -719528 ≤ days then checkedSigned 64 (days * 86400000) else none) :
    timestampLiteralAsI64 (.utf8 text) unit column = .ok v ↔
      MidnightFits days (.scaled (.timestamp unit)) ∧ (v : ℚ) / unit.perSecond = days * 86400 := by
  have hread : ∀ millis, timestampLiteralMillis (.utf8 text) column = .ok millis ↔
      (-719528 ≤ days ∧ InSigned 64 (days * 86400000)) ∧ days * 86400000 = millis := by
    intro millis
    unfold timestampLiteralMillis
    dsimp only
    rw [hmillis,okOr_invalidComparison,guarded_checked,and_assoc]
  have hstep : ∀ {step : ℤ → Result ℤ}, (∃ millis, timestampLiteralMillis (.utf8 text) column = .ok millis ∧
      step millis = .ok v) ↔ (-719528 ≤ days ∧ InSigned 64 (days * 86400000)) ∧ step (days * 86400000) = .ok v := by
    intro step
    constructor
    · rintro ⟨millis,hok,h⟩
      obtain ⟨hfits,rfl⟩ := (hread millis).mp hok
      exact ⟨hfits,h⟩
    · rintro ⟨hfits,h⟩
      exact ⟨_,(hread _).mpr ⟨hfits,rfl⟩,h⟩
  have hfiner : ∀ {k : ℤ}, 0 < k → InSigned 64 (days * 86400000 * k) → InSigned 64 (days * 86400000) := by
    intro k hk h
    constructor <;> nlinarith [h.1,h.2]
  unfold timestampLiteralAsI64
  rw [except_bind_eq_ok,hstep]
  cases unit with
  | second =>
    have hcut : (days * 86400000).tdiv 1000 = days * 86400 * 1 := by
      have hmul : days * 86400000 = days * 86400 * 1 * 1000 := by ring
      rw [hmul,Int.mul_tdiv_cancel _ (by decide)]
    rw [units_eq (k := 1) (by norm_num [TimeUnit.perSecond]) (by decide),← hcut]
    exact and_congr_right fun _ => ⟨fun h => Except.ok.inj h,fun h => congrArg Except.ok h⟩
  | millisecond =>
    rw [units_eq (k := 1000) (by norm_num [TimeUnit.perSecond]) (by decide)]
    have hmul : days * 86400000 = days * 86400 * 1000 := by ring
    rw [← hmul]
    exact and_congr_right fun _ => ⟨fun h => Except.ok.inj h,fun h => congrArg Except.ok h⟩
  | microsecond =>
    have hmul : days * 86400000 * 1000 = days * 86400 * 1000000 := by ring
    rw [units_eq (k := 1000000) (by norm_num [TimeUnit.perSecond]) (by decide),← hmul]
    rw [okOr_invalidComparison,checkedSigned_eq_some]
    constructor
    · rintro ⟨⟨hyear,-⟩,hfits,hvalue⟩
      exact ⟨⟨hyear,hfits⟩,hvalue⟩
    · rintro ⟨⟨hyear,hfits⟩,hvalue⟩
      exact ⟨⟨hyear,hfiner (by decide) hfits⟩,hfits,hvalue⟩
  | nanosecond =>
    have hmul : days * 86400000 * 1000000 = days * 86400 * 1000000000 := by ring
    rw [units_eq (k := 1000000000) (by norm_num [TimeUnit.perSecond]) (by decide),← hmul]
    dsimp only
    rw [okOr_invalidComparison,checkedSigned_eq_some]
    constructor
    · rintro ⟨⟨hyear,-⟩,hfits,hvalue⟩
      exact ⟨⟨hyear,hfits⟩,hvalue⟩
    · rintro ⟨⟨hyear,hfits⟩,hvalue⟩
      exact ⟨⟨hyear,hfiner (by decide) hfits⟩,hfits,hvalue⟩

variable {type : TestedType} {scale : Int8}

/-- The text of a date stands for its midnight, in the types that can hold it. -/
theorem typedLiteral_dateText {days : ℤ} {date : Civil} {d : Datum String}
    (htype : type.IsInstant) (h : InCalendar days) (hdate : civilFromDays days = .ok date) :
    typedLiteral floats type column (.utf8 (dateText date)) = .ok d ↔
      MidnightFits days type ∧ d = .instant (days * 86400) := by
  obtain ⟨date',hdate',hdays,hmillis⟩ := parseDateDays_civilFromDays h
  cases hdate.symm.trans hdate'
  cases type with
  | int32 | int64 | uint64 | boolean | utf8 | float64 => exact htype.elim
  | date32 =>
    refine exists_ok_map fun v => ?_
    unfold dateLiteralAsI32
    rw [okOr_invalidComparison,hdays,guarded_bind,checkedSigned_eq_some,← and_assoc]
    rfl
  | date64 =>
    have hseconds : Datum.instant (δ := String) (days * 86400) = .instant ((days * 86400000 : ℤ) / 1000) := by
      push_cast
      ring_nf
    rw [hseconds]
    refine exists_ok_map (f := fun value : ℤ => Datum.instant ((value : ℚ) / 1000)) fun v => ?_
    unfold dateLiteralAsI64
    rw [okOr_invalidComparison,hdays,guarded_bind,checkedSigned_eq_some,← and_assoc]
    rfl
  | scaled type =>
    cases type with
    | decimal128 precision scale => exact htype.elim
    | timestamp unit =>
      unfold typedLiteral
      rw [map_eq_ok_iff]
      constructor
      · rintro ⟨v,hv,rfl⟩
        obtain ⟨hfits,hvalue⟩ := (timestampLiteralAsI64_midnight hmillis).mp hv
        exact ⟨hfits,congrArg Datum.instant hvalue⟩
      · rintro ⟨hfits,rfl⟩
        obtain ⟨k,hk,hne⟩ := exists_perSecond unit
        have hvalue : ((days * 86400 * k : ℤ) : ℚ) / unit.perSecond = days * 86400 := (units_eq hk hne).mpr rfl
        exact ⟨_,(timestampLiteralAsI64_midnight hmillis).mpr ⟨hfits,hvalue⟩,congrArg Datum.instant hvalue⟩

theorem scaledLiteral_decimal {precision : UInt8} {literal : LiteralValue} {t : ℤ} :
    scaledLiteral (.decimal128 precision scale) literal column = .ok t ↔
      validPrecisionAndScale precision scale = true ∧ decimalLiteralAsI128 literal scale column = .ok t := by
  unfold scaledLiteral
  rw [except_bind_eq_ok]
  constructor
  · rintro ⟨value,hvalue,h⟩
    split_ifs at h with hvalid
    cases h
    exact ⟨hvalid,hvalue⟩
  · rintro ⟨hvalid,hvalue⟩
    exact ⟨t,hvalue,if_pos hvalid⟩

theorem scale_power {precision : UInt8} (h : TakesLiterals precision scale) :
    InSigned 128 (10 ^ scale.toInt.toNat) ∧ (10 : ℚ) ^ scale.toInt = 10 ^ scale.toInt.toNat := by
  obtain ⟨hvalid,hscale⟩ := h
  have hle : scale.toInt ≤ 38 := by
    unfold validPrecisionAndScale at hvalid
    simp only [Bool.and_eq_true,decide_eq_true_eq] at hvalid
    exact hvalid.1.2
  have hpow : (10 : ℤ) ^ scale.toInt.toNat ≤ 10 ^ 38 := pow_le_pow_right₀ (by decide) (by omega)
  refine ⟨inSigned_of_le (by positivity) hpow (by decide),?_⟩
  rw [← zpow_natCast,Int.toNat_of_nonneg hscale]

/-- An integer is brought to every type of numbers that can hold it. -/
theorem typedLiteral_integer {value : Int64} {d : Datum String} (htype : type.IsNumber) :
    typedLiteral floats type column (.int64 value) = .ok d ↔
      IntegerFits value.toInt type ∧ (Cell.integer value).datum floats type = some d := by
  have hsome : ∀ {x : Datum String}, d = x ↔ some x = some d := by
    intro x
    rw [Option.some.injEq,eq_comm]
  cases type with
  | boolean | date32 | date64 | utf8 => exact htype.elim
  | int64 | float64 =>
    exact ⟨fun h => ⟨trivial,congrArg some (Except.ok.inj h)⟩,fun h => congrArg Except.ok (Option.some.inj h.2)⟩
  | int32 =>
    refine (exists_ok_map (a := value.toInt) fun v => ?_).trans (and_congr_right fun _ => hsome)
    unfold LiteralValue.asI32
    rw [okOr_invalidComparison,checkedSigned_eq_some]
    rfl
  | uint64 =>
    refine (exists_ok_map (a := value.toInt) fun v => ?_).trans (and_congr_right fun _ => hsome)
    unfold LiteralValue.asU64
    dsimp only
    split_ifs with hsign
    · exact ⟨fun h => ⟨hsign,Except.ok.inj h⟩,fun h => congrArg Except.ok h.2⟩
    · exact iff_of_false (invalidFilter_ne_ok _ _) fun h => hsign h.1
  | scaled type =>
    cases type with
    | timestamp unit => exact htype.elim
    | decimal128 precision scale =>
      have hread : ∀ t, scaledLiteral (.decimal128 precision scale) (.int64 value) column = .ok t ↔
          IntegerFits value.toInt (.scaled (.decimal128 precision scale)) ∧ value.toInt * 10 ^ scale.toInt.toNat = t := by
        intro t
        rw [scaledLiteral_decimal]
        unfold decimalLiteralAsI128
        split_ifs with hscale
        · refine iff_of_false (fun h => invalidFilter_ne_ok _ _ h.2) fun h => ?_
          exact absurd h.1.1.2 (not_le.mpr hscale)
        · dsimp only
          constructor
          · rintro ⟨hvalid,h⟩
            obtain ⟨factor,hfactor,hproduct⟩ := except_bind_eq_ok.mp h
            obtain ⟨rfl,-⟩ := decimalScaleFactor_ok hfactor
            obtain ⟨hmem,rfl⟩ := checkedSigned_eq_some.mp (okOr_invalidComparison.mp hproduct)
            exact ⟨⟨⟨hvalid,not_lt.mp hscale⟩,hmem⟩,rfl⟩
          · rintro ⟨⟨htakes,hmem⟩,rfl⟩
            refine ⟨htakes.1,except_bind_eq_ok.mpr ⟨_,decimalScaleFactor_of_mem (scale_power htakes).1,?_⟩⟩
            exact okOr_invalidComparison.mpr (checkedSigned_of_mem hmem)
      refine (exists_ok_map hread).trans (and_congr_right fun hfits => ?_)
      have hvalue : scaledDatum (δ := String) (.decimal128 precision scale) (value.toInt * 10 ^ scale.toInt.toNat) =
          .number value.toInt := by
        unfold scaledDatum ScaledType.unitsPerOne
        dsimp only
        rw [(scale_power hfits.1).2]
        push_cast
        rw [mul_div_cancel_right₀ _ (by positivity)]
      rw [hvalue]
      exact hsome

/-- A decimal is brought to a type of decimals through the double that is nearest to it. -/
theorem typedLiteral_decimal {value : ℤ} (htype : type.IsNumber) :
    (∃ d, typedLiteral floats type column (.float64 (floats.ofDecimal value scale)) = .ok d ∧
      (Cell.decimal value scale).datum floats type = some d) ↔ DecimalPrints floats value scale type := by
  cases type with
  | boolean | date32 | date64 | utf8 => exact htype.elim
  | float64 => exact iff_of_true ⟨_,rfl,rfl⟩ trivial
  | int32 | int64 | uint64 =>
    refine iff_of_false ?_ id
    rintro ⟨d,hd,-⟩
    unfold typedLiteral at hd
    obtain ⟨v,hv,-⟩ := map_eq_ok_iff.mp hd
    exact invalidFilter_ne_ok _ _ hv
  | scaled type =>
    cases type with
    | timestamp unit => exact htype.elim
    | decimal128 precision columnScale =>
      have hread : ∀ t, scaledLiteral (.decimal128 precision columnScale) (.float64 (floats.ofDecimal value scale)) column =
          .ok t ↔ TakesLiterals precision columnScale ∧ ∃ n : Numeral,
            n.Spells isWhitespace (floats.ofDecimal value scale).toList ∧
            InSigned 128 (n.kept columnScale.toInt.toNat) ∧ t = towardZero (n.value * 10 ^ columnScale.toInt) := by
        intro t
        rw [scaledLiteral_decimal]
        unfold decimalLiteralAsI128
        split_ifs with hscale
        · refine iff_of_false (fun h => invalidFilter_ne_ok _ _ h.2) fun h => ?_
          exact absurd h.1.2 (not_le.mpr hscale)
        · dsimp only
          rw [decimalStringAsI128_iff]
          constructor
          · rintro ⟨hvalid,-,n,hspells,hmem,rfl⟩
            have htakes : TakesLiterals precision columnScale := ⟨hvalid,not_lt.mp hscale⟩
            refine ⟨htakes,n,hspells,hmem,?_⟩
            rw [(scale_power htakes).2,n.towardZero_value]
          · rintro ⟨htakes,n,hspells,hmem,rfl⟩
            refine ⟨htakes.1,(scale_power htakes).1,n,hspells,hmem,?_⟩
            rw [(scale_power htakes).2,n.towardZero_value]
      have hvalue : ∀ t : ℤ, scaledDatum (δ := String) (.decimal128 precision columnScale) t =
          .number (value / 10 ^ scale.toInt) ↔ (t : ℚ) = value / 10 ^ scale.toInt * 10 ^ columnScale.toInt := by
        intro t
        have hpos : (10 : ℚ) ^ columnScale.toInt ≠ 0 := zpow_ne_zero _ (by norm_num)
        unfold scaledDatum ScaledType.unitsPerOne
        rw [Datum.number.injEq,div_eq_iff hpos]
      constructor
      · rintro ⟨d,hd,hsame⟩
        obtain ⟨t,ht,rfl⟩ := map_eq_ok_iff.mp hd
        obtain ⟨htakes,n,hspells,hmem,rfl⟩ := (hread t).mp ht
        exact ⟨htakes,n,hspells,hmem,(hvalue _).mp (Option.some.inj hsame).symm⟩
      · rintro ⟨htakes,n,hspells,hmem,hsame⟩
        refine ⟨_,map_eq_ok_iff.mpr ⟨_,(hread _).mpr ⟨htakes,n,hspells,hmem,rfl⟩,rfl⟩,?_⟩
        exact congrArg some ((hvalue _).mpr hsame).symm

theorem typedLiteral_iff {cell : Cell} {literal : LiteralValue} (hnull : cell ≠ .null)
    (hsuits : cell.Suits type) (hliteral : cell.literal floats = .ok literal) :
    (∃ d, typedLiteral floats type column literal = .ok d ∧ cell.datum floats type = some d) ↔
      cell.ReadsExactly floats type := by
  cases cell with
  | null => exact absurd rfl hnull
  | unread => exact absurd hliteral (fun h => nomatch h)
  | boolean value | text value | double display =>
    cases hliteral
    cases hsuits
    exact iff_of_true ⟨_,rfl,rfl⟩ trivial
  | integer value =>
    cases hliteral
    constructor
    · rintro ⟨d,hd,-⟩
      exact ((typedLiteral_integer hsuits).mp hd).1
    · intro hfits
      exact ⟨_,(typedLiteral_integer hsuits).mpr ⟨hfits,rfl⟩,rfl⟩
  | decimal value scale =>
    cases hliteral
    exact typedLiteral_decimal hsuits
  | date days =>
    obtain ⟨date,hdate,rfl⟩ := map_eq_ok_iff.mp hliteral
    have hcalendar : InCalendar days.toInt := inCalendar_of_days ⟨days.le_toInt,days.toInt_lt⟩
    constructor
    · rintro ⟨d,hd,-⟩
      exact ((typedLiteral_dateText hsuits hcalendar hdate).mp hd).1
    · intro hfits
      exact ⟨_,(typedLiteral_dateText hsuits hcalendar hdate).mpr ⟨hfits,rfl⟩,rfl⟩
  | dateTime millis =>
    obtain ⟨date,hdate,rfl⟩ := map_eq_ok_iff.mp hliteral
    have hcalendar : InCalendar (millis.toInt.tdiv 86400000) := inCalendar_of_millis ⟨millis.le_toInt,millis.toInt_lt⟩
    have hmidnight : (millis.toInt : ℚ) / 1000 = (millis.toInt.tdiv 86400000 : ℤ) * 86400 ↔ 86400000 ∣ millis.toInt := by
      rw [div_eq_iff (by norm_num)]
      constructor
      · intro h
        have hint : millis.toInt = millis.toInt.tdiv 86400000 * 86400 * 1000 := by exact_mod_cast h
        exact ⟨millis.toInt.tdiv 86400000,by omega⟩
      · rintro ⟨days,hdays⟩
        rw [hdays,Int.mul_tdiv_cancel_left _ (by decide)]
        push_cast
        ring
    constructor
    · rintro ⟨d,hd,hsame⟩
      obtain ⟨hfits,rfl⟩ := (typedLiteral_dateText hsuits hcalendar hdate).mp hd
      have hdvd := hmidnight.mp (Datum.instant.inj (Option.some.inj hsame))
      rw [Int.tdiv_eq_ediv_of_dvd hdvd] at hfits
      exact ⟨hdvd,hfits⟩
    · rintro ⟨hdvd,hfits⟩
      rw [← Int.tdiv_eq_ediv_of_dvd hdvd] at hfits
      refine ⟨_,(typedLiteral_dateText hsuits hcalendar hdate).mpr ⟨hfits,rfl⟩,?_⟩
      exact congrArg (fun seconds => some (Datum.instant seconds)) (hmidnight.mpr hdvd)

end Literals
end Dodam.Sql
