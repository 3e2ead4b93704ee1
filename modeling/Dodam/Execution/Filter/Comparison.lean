import Dodam.Execution.Filter.Reading
import Mathlib.Data.String.Basic

/-! # Comparing a column with a literal

`evaluate_comparison` brings the literal to the type of the column and compares stored integers.
Columns of floating-point numbers are not modelled.
-/
namespace Dodam.Execution
open Foundation

abbrev ComparisonOp := OrderTest

structure ComparisonExpr where
  column : String
  op : ComparisonOp
  value : LiteralValue

/-- The column types that store integers in units of their own. -/
inductive ScaledType
  | decimal128 (precision : UInt8) (scale : Int8)
  | timestamp (unit : TimeUnit)
deriving DecidableEq

inductive Column
  | int32 (values : List (Option Int32))
  | int64 (values : List (Option Int64))
  | uint64 (values : List (Option UInt64))
  | boolean (values : List (Option Bool))
  | date32 (values : List (Option Int32))
  | date64 (values : List (Option Int64))
  | scaled (type : ScaledType) (values : List (Option ℤ))
  | utf8 (values : List (Option String))
  | unsupported (dataType : String) (rows : ℕ)

def Column.numRows : Column → ℕ
  | .int32 values | .date32 values => values.length
  | .int64 values | .date64 values => values.length
  | .uint64 values => values.length
  | .boolean values => values.length
  | .scaled _ values => values.length
  | .utf8 values => values.length
  | .unsupported _ rows => rows

namespace LiteralValue

def asI32 (value : LiteralValue) (column : String) : Result ℤ :=
  match value with
  | int64 n => okOr (checkedSigned 32 n.toInt) (invalidComparison column value.display)
  | _ => invalidComparison column value.display

def asI64 (value : LiteralValue) (column : String) : Result ℤ :=
  match value with
  | int64 n => .ok n.toInt
  | _ => invalidComparison column value.display

def asU64 (value : LiteralValue) (column : String) : Result ℤ :=
  match value with
  | int64 n => if 0 ≤ n.toInt then .ok n.toInt else invalidComparison column value.display
  | _ => invalidComparison column value.display

def asBool (value : LiteralValue) (column : String) : Result Bool :=
  match value with
  | boolean b => .ok b
  | _ => invalidComparison column value.display

def asStr (value : LiteralValue) : String := value.display

end LiteralValue

def dateLiteralAsI32 (value : LiteralValue) (column : String) : Result ℤ :=
  match value with
  | .int64 n => okOr (checkedSigned 32 n.toInt) (invalidComparison column value.display)
  | .utf8 text => okOr ((parseDateDays text.toList).bind (checkedSigned 32)) (invalidComparison column text)
  | _ => invalidComparison column value.display

def dateLiteralAsI64 (value : LiteralValue) (column : String) : Result ℤ :=
  match value with
  | .int64 n => .ok n.toInt
  | .utf8 text => okOr ((parseDateDays text.toList).bind fun days => checkedSigned 64 (days * 86400000))
      (invalidComparison column text)
  | _ => invalidComparison column value.display

/-- The comparison kernels: a NULL compares to NULL. -/
def compare {κ : Type} [LinearOrder κ] (values : List (Option κ)) (scalar : κ) (op : ComparisonOp) :
    List (Option Bool) :=
  values.map fun value => value.map fun v => decide (op.Holds v scalar)

/-- `with_precision_and_scale` accepts the type. -/
def validPrecisionAndScale (precision : UInt8) (scale : Int8) : Bool :=
  0 < precision.toNat && precision.toNat ≤ 38 && scale.toInt ≤ 38 && scale.toInt ≤ precision.toNat

def scaledLiteral (type : ScaledType) (value : LiteralValue) (column : String) : Result ℤ :=
  match type with
  | .decimal128 precision scale => do
    let value ← decimalLiteralAsI128 value scale column
    if validPrecisionAndScale precision scale then return value else .error (.err .arrow)
  | .timestamp unit => timestampLiteralAsI64 value unit column

/-- `evaluate_comparison`, on the column its name resolves to. -/
def evaluateComparison (column : Column) (comparison : ComparisonExpr) : Result (List (Option Bool)) :=
  let name := comparison.column
  let literal := comparison.value
  if literal = .null then .ok (List.replicate column.numRows none)
  else
    match column with
    | .int32 values => return compare (values.map (Option.map Int32.toInt)) (← literal.asI32 name) comparison.op
    | .int64 values => return compare (values.map (Option.map Int64.toInt)) (← literal.asI64 name) comparison.op
    | .uint64 values =>
      return compare (values.map (Option.map fun v => (v.toNat : ℤ))) (← literal.asU64 name) comparison.op
    | .boolean values => return compare values (← literal.asBool name) comparison.op
    | .date32 values =>
      return compare (values.map (Option.map Int32.toInt)) (← dateLiteralAsI32 literal name) comparison.op
    | .date64 values =>
      return compare (values.map (Option.map Int64.toInt)) (← dateLiteralAsI64 literal name) comparison.op
    | .scaled type values => return compare values (← scaledLiteral type literal name) comparison.op
    | .utf8 values => return compare values literal.asStr comparison.op
    | .unsupported dataType _ => .error (.err (.unsupportedFilterType name dataType))

section Exact

def TimeUnit.perSecond : TimeUnit → ℚ
  | .second => 1
  | .millisecond => 1000
  | .microsecond => 1000000
  | .nanosecond => 1000000000

def ScaledType.unitsPerOne : ScaledType → ℚ
  | .decimal128 _ scale => 10 ^ scale.toInt
  | .timestamp unit => unit.perSecond

/-- The number a literal stands for: a numeral, or an instant in seconds. Whole numbers against a
timestamp are milliseconds. -/
def LiteralValue.Denotes (value : LiteralValue) (type : ScaledType) (q : ℚ) : Prop :=
  match type,value with
  | .decimal128 _ _,.int64 n => q = n.toInt
  | .decimal128 _ _,.float64 text => ∃ n : Numeral, n.Spells isWhitespace text.toList ∧ q = n.value
  | .decimal128 _ _,.utf8 text => ∃ n : Numeral, n.Spells isWhitespace text.toList ∧ q = n.value
  | .timestamp _,.int64 n => q = n.toInt / 1000
  | .timestamp _,.utf8 text => ∃ millis : ℤ, parseTimestampMillis text.toList = some millis ∧
      q = millis / 1000
  | _,_ => False

variable {value : LiteralValue} {column : String}

theorem LiteralValue.Denotes.unique {type : ScaledType} {q q' : ℚ}
    (h : value.Denotes type q) (h' : value.Denotes type q') : q = q' := by
  cases type with
  | decimal128 precision scale =>
    cases value with
    | null => exact h.elim
    | boolean b => exact h.elim
    | int64 n => exact h.trans h'.symm
    | float64 text | utf8 text =>
      obtain ⟨n,hn,rfl⟩ := h
      obtain ⟨n',hn',rfl⟩ := h'
      exact spells_unique hn hn'
  | timestamp unit =>
    cases value with
    | null => exact h.elim
    | boolean b => exact h.elim
    | int64 n => exact h.trans h'.symm
    | float64 text => exact h.elim
    | utf8 text =>
      obtain ⟨millis,hm,rfl⟩ := h
      obtain ⟨millis',hm',rfl⟩ := h'
      rw [Option.some.inj (hm.symm.trans hm')]

theorem decimalLiteralAsI128_ok {precision : UInt8} {scale : Int8} {t : ℤ} (h : decimalLiteralAsI128 value scale column = .ok t) :
    ∃ q, value.Denotes (.decimal128 precision scale) q ∧ t = towardZero (q * 10 ^ scale.toInt) := by
  unfold decimalLiteralAsI128 at h
  split_ifs at h with hneg
  · exact absurd h (invalidFilter_ne_ok _ _)
  · have hscale : (10 : ℚ) ^ scale.toInt = 10 ^ scale.toInt.toNat := by
      rw [← zpow_natCast,Int.toNat_of_nonneg (not_lt.mp hneg)]
    rw [hscale]
    cases value with
    | null => exact absurd h (invalidFilter_ne_ok _ _)
    | boolean b => exact absurd h (invalidFilter_ne_ok _ _)
    | int64 n =>
      obtain ⟨factor,hfactor,hproduct⟩ := except_bind_eq_ok.mp h
      obtain ⟨rfl,-⟩ := decimalScaleFactor_ok hfactor
      obtain ⟨-,rfl⟩ := checkedSigned_eq_some.mp ((okOr_eq_ok (invalidFilter_ne_ok _)).mp hproduct)
      refine ⟨n.toInt,rfl,?_⟩
      rw [← towardZero_intCast (K := ℚ) (n.toInt * 10 ^ scale.toInt.toNat)]
      push_cast
      rfl
    | float64 text | utf8 text =>
      obtain ⟨n,hn,rfl⟩ := decimalStringAsI128_ok h
      exact ⟨n.value,⟨n,hn,rfl⟩,(n.towardZero_value _).symm⟩

/-- Whole milliseconds, in seconds, are cut toward zero; in finer units they are exact. -/
theorem timestampLiteralAsI64_ok {unit : TimeUnit} {t : ℤ}
    (h : timestampLiteralAsI64 value unit column = .ok t) :
    ∃ q, value.Denotes (.timestamp unit) q ∧ t = towardZero (q * unit.perSecond) := by
  obtain ⟨millis,hmillis,h⟩ := except_bind_eq_ok.mp h
  refine ⟨millis / 1000,?_,?_⟩
  · cases value with
    | int64 n =>
      cases hmillis
      rfl
    | utf8 text => exact ⟨millis,(okOr_eq_ok (invalidFilter_ne_ok _)).mp hmillis,rfl⟩
    | null | boolean b | float64 text => exact absurd hmillis (invalidFilter_ne_ok _ _)
  · have hfiner : ∀ k : ℤ, towardZero ((millis : ℚ) / 1000 * (1000 * k)) = millis * k := by
      intro k
      rw [← towardZero_intCast (K := ℚ) (millis * k)]
      congr 1
      push_cast
      field_simp
    cases unit with
    | second =>
      cases h
      have hdiv := towardZero_div millis 1000
      rw [Nat.cast_ofNat] at hdiv
      rw [TimeUnit.perSecond,mul_one,hdiv]
      rfl
    | millisecond =>
      cases h
      have hk := hfiner 1
      rw [Int.cast_one,mul_one,mul_one] at hk
      exact hk.symm
    | microsecond | nanosecond =>
      obtain ⟨-,rfl⟩ := checkedSigned_eq_some.mp ((okOr_eq_ok (invalidFilter_ne_ok _)).mp h)
      rw [← hfiner,TimeUnit.perSecond]
      norm_num

theorem scaledLiteral_ok {type : ScaledType} {t : ℤ} (h : scaledLiteral type value column = .ok t) :
    ∃ q, value.Denotes type q ∧ t = towardZero (q * type.unitsPerOne) := by
  cases type with
  | decimal128 precision scale =>
    obtain ⟨t',ht',h⟩ := except_bind_eq_ok.mp h
    split_ifs at h
    cases h
    exact decimalLiteralAsI128_ok ht'
  | timestamp unit => exact timestampLiteralAsI64_ok h

theorem ScaledType.unitsPerOne_pos (type : ScaledType) : 0 < type.unitsPerOne := by
  cases type with
  | decimal128 precision scale => exact zpow_pos (by norm_num) _
  | timestamp unit => cases unit <;> norm_num [unitsPerOne,TimeUnit.perSecond]

/-- An accepted comparison has a literal that denotes one number, and it selects a row by comparing
that number with the stored one exactly where the truncation of the literal is exact. -/
theorem evaluateComparison_exact_iff {type : ScaledType} {values : List (Option ℤ)}
    (comparison : ComparisonExpr) {mask : List (Option Bool)}
    (h : evaluateComparison (.scaled type values) comparison = .ok mask)
    (hnull : comparison.value ≠ .null) :
    (∃! q, comparison.value.Denotes type q) ∧
      ∀ q, comparison.value.Denotes type q → ∀ (i : ℕ) (v : ℤ), values[i]? = some (some v) →
        ((mask[i]? = some (some true) ↔ comparison.op.Holds ((v : ℚ) / type.unitsPerOne) q) ↔
          ExactAt comparison.op v (q * type.unitsPerOne)) := by
  unfold evaluateComparison at h
  rw [if_neg hnull] at h
  obtain ⟨t,ht,hmask⟩ := except_bind_eq_ok.mp h
  cases hmask
  obtain ⟨q,hq,rfl⟩ := scaledLiteral_ok ht
  refine ⟨⟨q,hq,fun q' hq' => hq'.unique hq⟩,fun q' hq' i v hv => ?_⟩
  obtain rfl := hq'.unique hq
  have hpos := type.unitsPerOne_pos
  have hselected : (compare values (towardZero (q' * type.unitsPerOne)) comparison.op)[i]? =
      some (some true) ↔ comparison.op.Holds v (towardZero (q' * type.unitsPerOne)) := by
    unfold compare
    rw [List.getElem?_map,hv]
    simp
  have hscaled : comparison.op.Holds ((v : ℚ) / type.unitsPerOne) q' ↔
      comparison.op.Holds (v : ℚ) (q' * type.unitsPerOne) := by
    have hmap := OrderTest.holds_map (f := fun x : ℚ => x * type.unitsPerOne)
      (fun a b hab => mul_lt_mul_of_pos_right hab hpos) comparison.op ((v : ℚ) / type.unitsPerOne) q'
    rw [div_mul_cancel₀ _ hpos.ne'] at hmap
    exact hmap.symm
  rw [hselected,hscaled]
  exact holds_towardZero_iff comparison.op v _

theorem evaluateComparison_exact_two_decimals :
    (∃! q, (LiteralValue.int64 1).Denotes (.decimal128 10 2) q) ∧
      ∀ q, (LiteralValue.int64 1).Denotes (.decimal128 10 2) q → ∀ (i : ℕ) (v : ℤ),
        [some 100,none][i]? = some (some v) →
        (([some true,none][i]? = some (some true) ↔
          (OrderTest.eq).Holds ((v : ℚ) / (ScaledType.decimal128 10 2).unitsPerOne) q) ↔
          ExactAt .eq v (q * (ScaledType.decimal128 10 2).unitsPerOne)) :=
  evaluateComparison_exact_iff ⟨"price",.eq,.int64 1⟩ (by decide) (by decide)

/-- Against two decimals `1.239` is `1.23`. -/
theorem evaluateComparison_cuts_digits :
    ¬ ∀ mask, evaluateComparison (.scaled (.decimal128 10 2) [some 123]) ⟨"price",.eq,.utf8 "1.239"⟩ =
        .ok mask → ∀ q, (LiteralValue.utf8 "1.239").Denotes (.decimal128 10 2) q →
      (mask[0]? = some (some true) ↔
        (OrderTest.eq).Holds ((123 : ℚ) / (ScaledType.decimal128 10 2).unitsPerOne) q) := by
  intro hall
  have hspells : (⟨false,['1'],['2','3','9'],List.cons_ne_nil _ _,List.all_eq_true.mp rfl,
      List.all_eq_true.mp rfl⟩ : Numeral).Spells isWhitespace "1.239".toList :=
    ⟨[],[],['.','2','3','9'],[],rfl,List.forall_mem_nil _,List.forall_mem_nil _,Or.inl rfl,Or.inl rfl⟩
  have hscale : (2 : Int8).toInt = 2 := by decide
  have hwhole : digitsValue ['1'] = 1 := by decide
  have hfraction : digitsValue ['2','3','9'] = 239 := by decide
  have hequal := (hall [some true] (by decide) _ ⟨_,hspells,rfl⟩).mp rfl
  norm_num [OrderTest.Holds,ScaledType.unitsPerOne,Numeral.value,Numeral.magnitude,hscale,hwhole,
    hfraction] at hequal

end Exact
end Dodam.Execution
