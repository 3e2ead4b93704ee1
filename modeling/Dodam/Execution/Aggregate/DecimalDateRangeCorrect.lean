import Dodam.Execution.Aggregate.DecimalDateRange
import Dodam.Execution.Filter.DateText

/-! # The range of a filter accepts its rows

The bounds are those of the comparisons, with literals read by a second reader each. The readers
agree on integers and on decimal texts.
-/
namespace Dodam.Execution
open Foundation DecimalDateRangeFilter

structure DecimalType where
  precision : UInt8
  scale : Int8
  valid : validPrecisionAndScale precision scale = true

/-- Two names that designate the two columns of a batch. -/
structure FilterColumns where
  decimal : String
  date : String
  decimalIndex : columnIndex [decimal,date] decimal = .ok 0
  dateIndex : columnIndex [decimal,date] date = .ok 1

structure HasColumns {γ : Type*} (columns : FilterColumns) (type : DecimalType) (batch : Batch γ)
    (decimals : List (Option ℤ)) (dates : List (Option Int32)) : Prop where
  decimal : ∃ i name, columnIndex batch.names columns.decimal = .ok i ∧
    batch.columns[i]? = some (name,.stored (.scaled (.decimal128 type.precision type.scale) decimals))
  date : ∃ i name, columnIndex batch.names columns.date = .ok i ∧
    batch.columns[i]? = some (name,.stored (.date32 dates))

/-- Every test of a row tells whether it passes the filter expression. -/
def DecimalDateRangeFilter.Agrees (γ : Type*) (columns : FilterColumns) (type : DecimalType) (expr : Expr)
    (filter : DecimalDateRangeFilter) : Prop :=
  ∀ (kernels : Kernels γ) (batch : Batch γ) decimals dates, HasColumns columns type batch decimals dates →
    ∀ row < batch.numRows, ∀ decimal (date : I32) day, InSigned 128 decimal → day.toInt = date.val →
      decimals[row]? = some (some decimal) → dates[row]? = some (some day) →
      (filter.matchesRow decimal date.val = true ↔ Passes kernels batch expr row) ∧
      ∀ value : I64, value.val = decimal → (filter.matchesI64 value date = true ↔ Passes kernels batch expr row) ∧
        ∀ raw, filter.rawI64Bounds = some raw → (raw.matchesRow value.val date.val = true ↔ Passes kernels batch expr row)

/-- Both readers take the literal for the same number: a floating-point literal times the power of ten is rounded, in
floating point, to what is left of its digits at the scale, and the day of a date is a 32-bit number. -/
def ExactLiteral (scale : Int8) : LiteralValue → Prop
  | .float64 display => ∀ n : Numeral, n.Spells isWhitespace display.toList → 0 ≤ scale.toInt →
      |towardZero (n.value * 10 ^ scale.toInt.toNat)| < 2 ^ 127 ∧
        saturateSigned 128 (roundHalfAway (binary64 (binary64 n.value * binary64 (10 ^ scale.toInt.toNat)))) =
          towardZero (n.value * 10 ^ scale.toInt.toNat)
  | .utf8 text => ∀ year month day, parseDateParts (trim text.toList) = some (year,month,day) →
      InSigned 32 (daysFromCivil year month day)
  | _ => True

/-- The literals that the comparisons of a conjunction may have. -/
def Expr.LiteralsIn (allowed : LiteralValue → Prop) : Expr → Prop
  | .comparison test => allowed test.value
  | .and left right => left.LiteralsIn allowed ∧ right.LiteralsIn allowed
  | _ => True

section Bounds

def Within (bounds : Option ℤ × Option ℤ) (x : ℤ) : Prop := (∀ low ∈ bounds.1, low ≤ x) ∧ ∀ high ∈ bounds.2, x ≤ high

variable {filter filter' : DecimalDateRangeFilter} {value x : ℤ} {op : ComparisonOp}

theorem matchesRow_iff {decimal date : ℤ} : filter.matchesRow decimal date = true ↔
      Within (filter.decimalMin,filter.decimalMax) decimal ∧ Within (filter.dateMin,filter.dateMax) date := by
  rw [matchesRow,Bool.and_eq_true,Bool.and_eq_true,Bool.and_eq_true,and_assoc]
  simp only [Option.all_eq_true,decide_eq_true_eq]
  exact Iff.rfl

theorem forall_mem_max {bound : Option ℤ} :
    (∀ low ∈ some (bound.elim value fun current => max current value), low ≤ x) ↔
      (∀ low ∈ bound, low ≤ x) ∧ value ≤ x := by
  cases bound <;> simp

theorem forall_mem_min {bound : Option ℤ} :
    (∀ high ∈ some (bound.elim value fun current => min current value), x ≤ high) ↔
      (∀ high ∈ bound, x ≤ high) ∧ x ≤ value := by
  cases bound <;> simp

theorem addComparison_spec {w : ℕ} {bounds bounds' : Option ℤ × Option ℤ}
    (h : addComparison w op value bounds = some bounds') : Within bounds' x ↔ Within bounds x ∧ op.Holds x value := by
  cases op with
  | eq =>
    cases h
    rw [Within,Within,forall_mem_max,forall_mem_min,OrderTest.Holds]
    constructor
    · rintro ⟨⟨hlow,hvalue⟩,hhigh,hvalue'⟩
      exact ⟨⟨hlow,hhigh⟩,le_antisymm hvalue' hvalue⟩
    · rintro ⟨⟨hlow,hhigh⟩,rfl⟩
      exact ⟨⟨hlow,le_rfl⟩,hhigh,le_rfl⟩
  | notEq => cases h
  | lt =>
    obtain ⟨below,hbelow,rfl⟩ := Option.map_eq_some_iff.mp h
    obtain ⟨-,rfl⟩ := checkedSigned_eq_some.mp hbelow
    rw [Within,Within,forall_mem_min,and_assoc,OrderTest.Holds,Int.le_sub_one_iff]
  | ltEq =>
    cases h
    rw [Within,Within,forall_mem_min,and_assoc,OrderTest.Holds]
  | gt =>
    obtain ⟨above,habove,rfl⟩ := Option.map_eq_some_iff.mp h
    obtain ⟨-,rfl⟩ := checkedSigned_eq_some.mp habove
    rw [Within,Within,forall_mem_max,and_right_comm,OrderTest.Holds,Int.add_one_le_iff]
  | gtEq =>
    cases h
    rw [Within,Within,forall_mem_max,and_right_comm,OrderTest.Holds]

theorem addDecimalComparison_spec
    (h : filter.addDecimalComparison op value = some filter') (decimal date : ℤ) :
    filter'.matchesRow decimal date = true ↔ filter.matchesRow decimal date = true ∧ op.Holds decimal value := by
  obtain ⟨bounds,hbounds,rfl⟩ := Option.map_eq_some_iff.mp h
  rw [matchesRow_iff,matchesRow_iff,and_right_comm,← addComparison_spec hbounds]

theorem addDateComparison_spec
    (h : filter.addDateComparison op value = some filter') (decimal date : ℤ) :
    filter'.matchesRow decimal date = true ↔ filter.matchesRow decimal date = true ∧ op.Holds date value := by
  obtain ⟨bounds,hbounds,rfl⟩ := Option.map_eq_some_iff.mp h
  rw [matchesRow_iff,matchesRow_iff,and_assoc,← addComparison_spec hbounds]

end Bounds

section Decimals
variable {type : DecimalType}

theorem DecimalType.scale_le (type : DecimalType) : type.scale.toInt ≤ 38 := by
  have h := type.valid
  simp only [validPrecisionAndScale,Bool.and_eq_true,decide_eq_true_eq] at h
  exact h.1.2

theorem DecimalType.power_mem (type : DecimalType) : InSigned 128 (10 ^ type.scale.toInt.toNat) := by
  have hle : type.scale.toInt.toNat ≤ 38 := by
    have := type.scale_le
    omega
  have hpow : (10 : ℤ) ^ type.scale.toInt.toNat ≤ 10 ^ 38 := pow_le_pow_right₀ (by norm_num) hle
  exact ⟨(by norm_num : (-2 ^ (128 - 1) : ℤ) ≤ 0).trans (by positivity),hpow.trans_lt (by norm_num)⟩

theorem decimalScaleFactorI128_eq (type : DecimalType) : decimalScaleFactorI128 type.scale =
    if type.scale.toInt < 0 then none else some (10 ^ type.scale.toInt.toNat) := by
  rw [decimalScaleFactorI128,checkedSigned_of_mem type.power_mem]

theorem finiteFloat64_eq_some {display : String} {q : ℚ} :
    finiteFloat64 display = some q ↔ ∃ n : Numeral, n.Spells isWhitespace display.toList ∧ binary64 n.value = q := by
  constructor
  · intro h
    obtain ⟨⟨negative,whole,fractional⟩,hparts,rfl⟩ := Option.map_eq_some_iff.mp h
    obtain ⟨n,hspells,rfl,rfl,rfl⟩ := decimalParts_spells hparts
    exact ⟨n,hspells,rfl⟩
  · rintro ⟨n,hspells,rfl⟩
    exact Option.map_eq_some_iff.mpr ⟨_,decimalParts_of_spells hspells,rfl⟩

theorem kept_mem_iff (n : Numeral) (scale : ℕ) :
    InSigned 128 (n.kept scale) ↔ |towardZero (n.value * 10 ^ scale)| < 2 ^ 127 := by
  have habs : |towardZero (n.value * 10 ^ scale)| = n.kept scale := by
    rw [n.towardZero_value]
    split_ifs <;> simp
  rw [habs]
  exact and_iff_right ((by norm_num : (-2 ^ (128 - 1) : ℤ) ≤ 0).trans (Int.natCast_nonneg _))

theorem decimalStringAsI128_exact {value : String} {scale : ℕ} {column : String} {r : ℤ}
    (hscale : InSigned 128 (10 ^ scale)) : decimalStringAsI128 value scale column = .ok r ↔
      ∃ n : Numeral, n.Spells isWhitespace value.toList ∧ |towardZero (n.value * 10 ^ scale)| < 2 ^ 127 ∧
        r = towardZero (n.value * 10 ^ scale) := by
  rw [decimalStringAsI128_iff,and_iff_right hscale]
  refine exists_congr fun n => ?_
  rw [kept_mem_iff,n.towardZero_value]

/-- A text that the filter reads is a numeral with no digits past the scale, and fits. -/
theorem parseDecimalLiteralRaw_spec {value : String} {scale : Int8} {raw : ℤ}
    (h : parseDecimalLiteralRaw value scale = some raw) : ∃ n : Numeral, n.Spells isWhitespace value.toList ∧
      InSigned 128 (n.kept scale.toInt.toNat) ∧
      raw = if n.negative then -(n.kept scale.toInt.toNat : ℤ) else n.kept scale.toInt.toNat := by
  unfold parseDecimalLiteralRaw at h
  obtain ⟨whole,fraction,point,hsplit,-,-⟩ := splitPoint_cases (stripSign (trim value.toList))
  by_cases hscale : scale.toInt < 0
  · rw [if_pos hscale] at h
    cases h
  rw [if_neg hscale] at h
  dsimp only at h
  by_cases hempty : (trim value.toList).isEmpty = true
  · rw [if_pos hempty] at h
    cases h
  rw [if_neg hempty,hsplit] at h
  by_cases hnone : (whole.isEmpty && fraction.isEmpty) = true
  · rw [if_pos hnone] at h
    cases h
  rw [if_neg hnone] at h
  by_cases hdigits : (!whole.all Char.isDigit || !fraction.all Char.isDigit ||
      decide (scale.toInt.toNat < fraction.length)) = true
  · rw [if_pos hdigits] at h
    cases h
  rw [if_neg hdigits] at h
  simp only [Bool.or_eq_true,Bool.not_eq_true',decide_eq_true_eq,not_or,Bool.not_eq_false,not_lt] at hdigits
  obtain ⟨⟨hwhole,hfraction⟩,hlength⟩ := hdigits
  obtain ⟨parsed,hparsed,h⟩ := Option.bind_eq_some_iff.mp h
  obtain ⟨factor,hfactor,h⟩ := Option.bind_eq_some_iff.mp h
  obtain ⟨product,hproduct,h⟩ := Option.bind_eq_some_iff.mp h
  obtain ⟨total,htotal,hraw⟩ := Option.bind_eq_some_iff.mp h
  have hne : whole ≠ [] := by
    rintro rfl
    cases hparsed
  have hparts : decimalParts (trim value.toList) = some (decide ((trim value.toList).head? = some '-'),whole,fraction) := by
    unfold decimalParts
    dsimp only
    rw [hsplit]
    dsimp only
    rw [if_neg (by simp [hne,hwhole]),if_neg (by simp [hfraction])]
  obtain ⟨n,hspells,hnegative,rfl,rfl⟩ := decimalParts_spells hparts
  rw [parseSigned_digits 128 n.whole_ne n.whole_digits] at hparsed
  obtain ⟨-,rfl⟩ := checkedSigned_eq_some.mp hparsed
  obtain ⟨-,rfl⟩ := checkedSigned_eq_some.mp hfactor
  obtain ⟨hfits,rfl⟩ := checkedSigned_eq_some.mp hproduct
  have htake : n.fractional.take scale.toInt.toNat = n.fractional := List.take_of_length_le hlength
  have hkept : InSigned 128 (n.kept scale.toInt.toNat) ∧ total = n.kept scale.toInt.toNat := by
    unfold Numeral.kept
    rw [htake]
    push_cast
    by_cases hfractional : n.fractional.isEmpty = true
    · rw [if_pos hfractional] at htotal
      cases htotal
      have hzero : digitsValue [] = 0 := rfl
      rw [List.isEmpty_iff.mp hfractional,hzero,Nat.cast_zero,zero_mul,add_zero]
      exact ⟨hfits,rfl⟩
    · rw [if_neg hfractional] at htotal
      obtain ⟨digits,hdigits,htotal⟩ := Option.bind_eq_some_iff.mp htotal
      obtain ⟨power,hpower,htotal⟩ := Option.bind_eq_some_iff.mp htotal
      obtain ⟨scaled,hscaled,htotal⟩ := Option.bind_eq_some_iff.mp htotal
      rw [parseSigned_digits 128 (by simpa using hfractional) n.fractional_digits] at hdigits
      obtain ⟨-,rfl⟩ := checkedSigned_eq_some.mp hdigits
      obtain ⟨-,rfl⟩ := checkedSigned_eq_some.mp hpower
      obtain ⟨-,rfl⟩ := checkedSigned_eq_some.mp hscaled
      obtain ⟨hmem,rfl⟩ := checkedSigned_eq_some.mp htotal
      exact ⟨hmem,rfl⟩
  obtain ⟨hmem,rfl⟩ := hkept
  refine ⟨n,hspells,hmem,?_⟩
  rw [hnegative]
  simpa using (Option.some.inj hraw).symm

theorem literalToDecimalRaw_exact {value : LiteralValue} {raw : ℤ} (h : literalToDecimalRaw value type.scale = some raw)
    (hexact : ExactLiteral type.scale value) (column : String) :
    decimalLiteralAsI128 value type.scale column = .ok raw := by
  unfold literalToDecimalRaw at h
  rw [decimalScaleFactorI128_eq] at h
  unfold decimalLiteralAsI128
  split_ifs at h ⊢ with hscale
  · cases h
  dsimp only [Option.bind_some] at h ⊢
  cases value with
  | null => cases h
  | boolean value => cases h
  | int64 value =>
    rw [decimalScaleFactor_of_mem type.power_mem]
    exact congrArg (okOr · _) h
  | float64 display =>
    obtain ⟨q,hq,rfl⟩ := Option.map_eq_some_iff.mp h
    obtain ⟨n,hspells,rfl⟩ := finiteFloat64_eq_some.mp hq
    obtain ⟨hsmall,hround⟩ := hexact n hspells (not_lt.mp hscale)
    push_cast
    exact (decimalStringAsI128_exact type.power_mem).mpr ⟨n,hspells,hsmall,hround⟩
  | utf8 text =>
    obtain ⟨n,hspells,hmem,rfl⟩ := parseDecimalLiteralRaw_spec h
    exact decimalStringAsI128_iff.mpr ⟨type.power_mem,n,hspells,hmem,rfl⟩

theorem exact_of_float64 {display : String} (column : String)
    (h : ∀ raw, literalToDecimalRaw (.float64 display) type.scale = some raw →
      decimalLiteralAsI128 (.float64 display) type.scale column = .ok raw) : ExactLiteral type.scale (.float64 display) := by
  intro n hspells hscale
  have hread : literalToDecimalRaw (.float64 display) type.scale = some (saturateSigned 128
      (roundHalfAway (binary64 (binary64 n.value * binary64 (10 ^ type.scale.toInt.toNat))))) := by
    unfold literalToDecimalRaw
    rw [decimalScaleFactorI128_eq,if_neg (not_lt.mpr hscale),Option.bind_some]
    dsimp only
    rw [finiteFloat64_eq_some.mpr ⟨n,hspells,rfl⟩,Option.map_some]
    push_cast
    rfl
  have heval := h _ hread
  unfold decimalLiteralAsI128 at heval
  rw [if_neg (not_lt.mpr hscale)] at heval
  obtain ⟨n',hspells',hsmall,hround⟩ := (decimalStringAsI128_exact type.power_mem).mp heval
  rw [spells_unique hspells hspells'] at hround ⊢
  exact ⟨hsmall,hround⟩

theorem inSigned_neg {w : ℕ} {x : ℤ} (h0 : 0 ≤ x) (h : InSigned w x) : InSigned w (-x) := by
  unfold InSigned at h ⊢
  omega

theorem literalToDecimalRaw_mem {value : LiteralValue} {raw : ℤ} (h : literalToDecimalRaw value type.scale = some raw) :
    InSigned 128 raw := by
  obtain ⟨factor,-,h⟩ := Option.bind_eq_some_iff.mp h
  cases value with
  | null => cases h
  | boolean value => cases h
  | int64 value =>
    obtain ⟨hmem,rfl⟩ := checkedSigned_eq_some.mp h
    exact hmem
  | float64 display =>
    obtain ⟨q,-,rfl⟩ := Option.map_eq_some_iff.mp h
    unfold InSigned saturateSigned
    omega
  | utf8 text =>
    obtain ⟨n,-,hmem,rfl⟩ := parseDecimalLiteralRaw_spec h
    split_ifs
    · exact inSigned_neg (Int.natCast_nonneg _) hmem
    · exact hmem

end Decimals

section Dates

variable {year days : ℤ}

theorem daysFromCivilI32_eq (month day : ℕ) (hyear : 0 ≤ year ∧ InSigned 32 year) :
    daysFromCivilI32 year month day = wrapSigned 32 (daysFromCivil year month day) := by
  obtain ⟨hnonneg,-,hlt⟩ := hyear
  obtain ⟨shifted,hshifted⟩ : ∃ shifted, shifted = year - if month ≤ 2 then 1 else 0 := ⟨_,rfl⟩
  have hrange : -1 ≤ shifted ∧ shifted < 2 ^ 31 := by
    rw [hshifted]
    split_ifs <;> constructor <;> omega
  have hshift : wrapSigned 32 shifted = shifted := wrapSigned_of_mem (by decide) (by unfold InSigned; omega)
  have hbelow : wrapSigned 32 (shifted - 399) = shifted - 399 :=
    wrapSigned_of_mem (by decide) (by unfold InSigned; omega)
  unfold daysFromCivilI32 daysFromCivil
  dsimp only
  rw [← hshifted,hshift,hbelow]
  simp only [wrapSigned,sub_eq_add_neg,Int.bmod_add_bmod]

theorem parseDate32Literal_eq_some {text : String} (h : parseDate32Literal text = some days) :
    ∃ year month day, parseDateParts (trim text.toList) = some (year,month,day) ∧
      days = wrapSigned 32 (daysFromCivil year month day) := by
  obtain ⟨⟨year,month,day⟩,hparts,rfl⟩ := Option.map_eq_some_iff.mp h
  obtain ⟨hyear,hmem,-⟩ := parseDateParts_mem hparts
  exact ⟨year,month,day,hparts,daysFromCivilI32_eq month day ⟨hyear,hmem⟩⟩

theorem parseDateDays_of_parts {text : List Char} {month day : ℕ}
    (h : parseDateParts (trim text) = some (year,month,day)) :
    parseDateDays text = some (daysFromCivil year month day) := by
  have hdate : (trim text).takeWhile (fun c => c ≠ ' ' ∧ c ≠ 'T') = trim text :=
    List.takeWhile_eq_self_iff.mpr fun c hc =>
      have hchar := (parseDateParts_eq_some h).1 c hc
      decide_eq_true ⟨ne_dateText hchar rfl,ne_dateText hchar rfl⟩
  unfold parseDateDays
  dsimp only
  rw [hdate,h]
  rfl

theorem literalToDate32_exact {scale : Int8} {value : LiteralValue} (h : literalToDate32 value = some days)
    (hexact : ExactLiteral scale value) (column : String) : dateLiteralAsI32 value column = .ok days := by
  cases value with
  | null => cases h
  | boolean value => cases h
  | float64 display => cases h
  | int64 value => exact congrArg (okOr · _) h
  | utf8 text =>
    obtain ⟨year,month,day,hparts,rfl⟩ := parseDate32Literal_eq_some h
    have hmem := hexact year month day hparts
    unfold dateLiteralAsI32
    dsimp only
    rw [parseDateDays_of_parts hparts,Option.bind_some,checkedSigned_of_mem hmem,wrapSigned_of_mem (by decide) hmem]
    rfl

theorem exact_of_utf8 {scale : Int8} {text : String} (column : String) (h : ∀ days, literalToDate32 (.utf8 text) = some days →
    dateLiteralAsI32 (.utf8 text) column = .ok days) : ExactLiteral scale (.utf8 text) := by
  intro year month day hparts
  have heval := h _ (congrArg (Option.map _) hparts)
  unfold dateLiteralAsI32 at heval
  dsimp only at heval
  rw [parseDateDays_of_parts hparts,Option.bind_some] at heval
  exact (checkedSigned_eq_some.mp ((okOr_eq_ok (invalidFilter_ne_ok _)).mp heval)).1

theorem wrapSigned_mem_i32 (x : ℤ) : InSigned 32 (wrapSigned 32 x) := by
  have hlow := Int.le_bmod (x := x) (m := 2 ^ 32) (by norm_num)
  have hhigh := Int.bmod_lt (x := x) (m := 2 ^ 32) (by norm_num)
  norm_num at hlow hhigh ⊢
  exact ⟨hlow,hhigh⟩

theorem literalToDate32_mem {value : LiteralValue} (h : literalToDate32 value = some days) :
    InSigned 32 days := by
  cases value with
  | null => cases h
  | boolean value => cases h
  | float64 display => cases h
  | int64 value =>
    obtain ⟨hmem,rfl⟩ := checkedSigned_eq_some.mp h
    exact hmem
  | utf8 text =>
    obtain ⟨year,month,day,-,rfl⟩ := parseDate32Literal_eq_some h
    exact wrapSigned_mem_i32 _

end Dates

section Rows
variable {γ : Type*} {columns : FilterColumns} {type : DecimalType} {kernels : Kernels γ} {batch : Batch γ}
  {decimals : List (Option ℤ)} {dates : List (Option Int32)} {row : ℕ}

theorem FilterColumns.distinct (columns : FilterColumns) : columns.date ≠ columns.decimal := by
  intro heq
  have h := columns.dateIndex
  rw [heq] at h
  have h0 := columns.decimalIndex
  rw [heq] at h0
  cases h.symm.trans h0

theorem not_passes_null (column : String) (op : ComparisonOp) (row : ℕ) :
    ¬ Passes kernels batch (.comparison ⟨column,op,.null⟩) row := by
  rintro ⟨mask,hmask,htrue⟩
  cases hmask
  exact absurd (List.eq_of_mem_replicate (List.mem_of_getElem? htrue)) nofun

theorem evaluateFilter_comparison {name : String} {column : Column}
    (h : ∃ i field, columnIndex batch.names name = .ok i ∧ batch.columns[i]? = some (field,.stored column))
    (op : ComparisonOp) {value : LiteralValue} (hnull : value ≠ .null) :
    evaluateFilter kernels batch (.comparison ⟨name,op,value⟩) = evaluateComparison column ⟨name,op,value⟩ := by
  obtain ⟨i,field,hindex,hcolumn⟩ := h
  exact evaluateBatchComparison_stored kernels op hnull hindex hcolumn

theorem passes_iff_of_compare {expr : Expr} (values : List (Option ℤ)) {read : Result ℤ} {op : ComparisonOp} {v : ℤ}
    (heval : evaluateFilter kernels batch expr = read.map fun raw => compare values raw op)
    (hrow : values[row]? = some (some v)) : Passes kernels batch expr row ↔ ∃ raw, read = .ok raw ∧ op.Holds v raw := by
  have hcell : ∀ raw, (compare values raw op)[row]? = some (some true) ↔ op.Holds v raw := by
    intro raw
    rw [compare,List.getElem?_map,hrow]
    simp
  unfold Passes
  rw [heval]
  constructor
  · rintro ⟨mask,hmask,htrue⟩
    obtain ⟨raw,hraw,rfl⟩ := map_eq_ok_iff.mp hmask
    exact ⟨raw,hraw,(hcell raw).mp htrue⟩
  · rintro ⟨raw,hraw,hholds⟩
    exact ⟨_,map_eq_ok_iff.mpr ⟨raw,hraw,rfl⟩,(hcell raw).mpr hholds⟩

theorem passes_decimal (h : HasColumns columns type batch decimals dates) {decimal : ℤ}
    (hrow : decimals[row]? = some (some decimal)) (op : ComparisonOp) (value : LiteralValue) :
    Passes kernels batch (.comparison ⟨columns.decimal,op,value⟩) row ↔
      ∃ raw, decimalLiteralAsI128 value type.scale columns.decimal = .ok raw ∧ op.Holds decimal raw := by
  by_cases hnull : value = .null
  · subst hnull
    refine iff_of_false (not_passes_null _ _ _) ?_
    rintro ⟨raw,hraw,-⟩
    unfold decimalLiteralAsI128 at hraw
    split_ifs at hraw
    · cases hraw
    · cases hraw
  · refine passes_iff_of_compare _ ?_ hrow
    rw [evaluateFilter_comparison h.decimal op hnull,evaluateComparison]
    rw [if_neg hnull,scaledLiteral,type.valid]
    cases decimalLiteralAsI128 value type.scale columns.decimal <;> rfl

theorem passes_date (h : HasColumns columns type batch decimals dates) {day : Int32}
    (hrow : dates[row]? = some (some day)) (op : ComparisonOp) (value : LiteralValue) :
    Passes kernels batch (.comparison ⟨columns.date,op,value⟩) row ↔
      ∃ days, dateLiteralAsI32 value columns.date = .ok days ∧ op.Holds day.toInt days := by
  by_cases hnull : value = .null
  · subst hnull
    refine iff_of_false (not_passes_null _ _ _) ?_
    rintro ⟨days,hdays,-⟩
    cases hdays
  · refine passes_iff_of_compare (dates.map (Option.map Int32.toInt)) ?_ ?_
    · rw [evaluateFilter_comparison h.date op hnull,evaluateComparison]
      rw [if_neg hnull]
      cases dateLiteralAsI32 value columns.date <;> rfl
    · rw [List.getElem?_map,hrow]
      rfl

/-- The rows of a filter after a part of a conjunction are those that also pass the part. -/
theorem addExpr_spec (h : HasColumns columns type batch decimals dates) (hnum : row < batch.numRows) {decimal : ℤ}
    {day : Int32} (hdecimal : decimals[row]? = some (some decimal)) (hday : dates[row]? = some (some day))
    {expr : Expr} (hexact : expr.LiteralsIn (ExactLiteral type.scale)) {filter filter' : DecimalDateRangeFilter}
    (hadd : addExpr columns.decimal columns.date type.scale filter expr = some filter') :
    filter'.matchesRow decimal day.toInt = true ↔
      filter.matchesRow decimal day.toInt = true ∧ Passes kernels batch expr row := by
  induction expr generalizing filter filter' with
  | boolean value =>
    obtain _ | _ | _ := value
    · cases hadd
    · cases hadd
    · cases hadd
      refine (and_iff_left ⟨_,rfl,?_⟩).symm
      exact List.getElem?_replicate_of_lt hnum
  | comparison comparison =>
    obtain ⟨name,op,value⟩ := comparison
    unfold addExpr at hadd
    split_ifs at hadd with hname hname'
    · subst hname
      obtain ⟨raw,hraw,hadd⟩ := Option.bind_eq_some_iff.mp hadd
      rw [addDecimalComparison_spec hadd,passes_decimal h hdecimal,literalToDecimalRaw_exact hraw hexact]
      simp
    · subst hname'
      obtain ⟨days,hdays,hadd⟩ := Option.bind_eq_some_iff.mp hadd
      rw [addDateComparison_spec hadd,passes_date h hday,literalToDate32_exact hdays hexact]
      simp
  | and left right ihleft ihright =>
    obtain ⟨middle,hleft,hright⟩ := Option.bind_eq_some_iff.mp hadd
    rw [ihright hexact.2 hright,ihleft hexact.1 hleft,passes_and,and_assoc]
  | _ => cases hadd

def rowBatch (γ : Type*) (columns : FilterColumns) (type : DecimalType) (decimal : ℤ) (day : Int32) : Batch γ :=
  ⟨1,[(columns.decimal,.stored (.scaled (.decimal128 type.precision type.scale) [some decimal])),
    (columns.date,.stored (.date32 [some day]))]⟩

theorem rowBatch_hasColumns (decimal : ℤ) (day : Int32) :
    HasColumns columns type (rowBatch γ columns type decimal day) [some decimal] [some day] :=
  ⟨⟨0,_,columns.decimalIndex,rfl⟩,⟨1,_,columns.dateIndex,rfl⟩⟩

end Rows

section Filter
variable {γ : Type*} {columns : FilterColumns} {type : DecimalType} {filter : DecimalDateRangeFilter}

theorem agrees_of_exact {expr : Expr} (hexact : expr.LiteralsIn (ExactLiteral type.scale))
    (hnew : tryNew expr columns.decimal columns.date type.scale = some filter) :
    filter.Agrees γ columns type expr := by
  intro kernels batch decimals dates h row hnum decimal date day _ hdate hdecimal hday
  have hspec : filter.matchesRow decimal date.val = true ↔ Passes kernels batch expr row := by
    rw [← hdate,addExpr_spec h hnum hdecimal hday hexact hnew]
    exact and_iff_right rfl
  refine ⟨hspec,fun value hvalue => ⟨?_,fun raw hraw => ?_⟩⟩
  · rw [matchesI64,hvalue]
    exact hspec
  · obtain ⟨rfl,-,-⟩ := rawI64Bounds_eq_some hraw
    rw [hvalue]
    exact hspec

theorem passes_of_agrees {expr : Expr} (h : filter.Agrees γ columns type expr)
    (decimal : ℤ) (hmem : InSigned 128 decimal) (day : Int32) (hday : InSigned 32 day.toInt)
    (hmatches : filter.matchesRow decimal day.toInt = true) (kernels : Kernels γ) :
    Passes kernels (rowBatch γ columns type decimal day) expr 0 :=
  (h kernels _ _ _ (rowBatch_hasColumns decimal day) 0 Nat.one_pos decimal ⟨day.toInt,hday⟩ day hmem rfl rfl rfl).1.mp
    hmatches

end Filter

end Dodam.Execution
