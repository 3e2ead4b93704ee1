import Dodam.Execution.Aggregate.DecimalDateFilter
import Dodam.Execution.Filter.Expr
import Dodam.Foundation.Binary64

/-! # The range of a filter

A conjunction of comparisons with literals becomes the bounds of the two columns, unless a part
of it is something else.
-/
namespace Dodam.Execution
open Foundation

section Literals

/-- The value that `Display` writes as the text, when it is finite. -/
def finiteFloat64 (display : String) : Option ℚ :=
  (decimalParts (trim display.toList)).map fun (negative,whole,fractional) =>
    let magnitude : ℚ := digitsValue whole + digitsValue fractional / 10 ^ fractional.length
    binary64 (if negative then -magnitude else magnitude)

def decimalScaleFactorI128 (scale : Int8) : Option ℤ :=
  if scale.toInt < 0 then none else checkedSigned 128 (10 ^ scale.toInt.toNat)

def parseDecimalLiteralRaw (value : String) (scale : Int8) : Option ℤ :=
  if scale.toInt < 0 then none
  else
    let scale := scale.toInt.toNat
    let value := trim value.toList
    if value.isEmpty then none
    else
      let negative := value.head? = some '-'
      let unsigned := stripSign value
      let (whole,fraction) := (splitOnce '.' unsigned).getD (unsigned,[])
      if whole.isEmpty && fraction.isEmpty then none
      else if !whole.all Char.isDigit || !fraction.all Char.isDigit || decide (scale < fraction.length) then none
      else do
        let raw ← parseSigned 128 whole
        let factor ← checkedSigned 128 (10 ^ scale)
        let raw ← checkedSigned 128 (raw * factor)
        let raw ← (if fraction.isEmpty then some raw
          else
            (parseSigned 128 fraction).bind fun fractionRaw =>
              (checkedSigned 128 (10 ^ (scale - fraction.length))).bind fun factor =>
                (checkedSigned 128 (fractionRaw * factor)).bind fun fractionRaw => checkedSigned 128 (raw + fractionRaw))
        return if negative then -raw else raw

/-- A product too large for a finite value is cut at the ends of `i128` as a large finite one is. -/
def literalToDecimalRaw (value : LiteralValue) (scale : Int8) : Option ℤ :=
  (decimalScaleFactorI128 scale).bind fun factor =>
    match value with
    | .int64 value => checkedSigned 128 (value.toInt * factor)
    | .float64 display => (finiteFloat64 display).map fun value =>
        saturateSigned 128 (roundHalfAway (binary64 (value * binary64 factor)))
    | .utf8 value => parseDecimalLiteralRaw value scale
    | _ => none

/-- `days_from_civil` in 32 bits. -/
def daysFromCivilI32 (year : ℤ) (month day : ℕ) : ℤ :=
  let year := wrapSigned 32 (year - if month ≤ 2 then 1 else 0)
  let era := (if 0 ≤ year then year else wrapSigned 32 (year - 399)).tdiv 400
  let yoe := year - era * 400
  let mp := (month : ℤ) + if 2 < month then -3 else 9
  let doy := (153 * mp + 2).tdiv 5 + day - 1
  let doe := yoe * 365 + yoe.tdiv 4 - yoe.tdiv 100 + doy
  wrapSigned 32 (wrapSigned 32 (wrapSigned 32 (era * 146097) + doe) - 719468)

def parseDate32Literal (value : String) : Option ℤ :=
  (parseDateParts (trim value.toList)).map fun (year,month,day) => daysFromCivilI32 year month day

def literalToDate32 : LiteralValue → Option ℤ
  | .int64 value => checkedSigned 32 value.toInt
  | .utf8 value => parseDate32Literal value
  | _ => none

end Literals

/-- The bounds after one more comparison with a value of `w` bits; none when it cannot be a bound. -/
def addComparison (w : ℕ) (op : ComparisonOp) (value : ℤ) (bounds : Option ℤ × Option ℤ) :
    Option (Option ℤ × Option ℤ) :=
  let atLeast (value : ℤ) : Option ℤ := some (bounds.1.elim value fun current => max current value)
  let atMost (value : ℤ) : Option ℤ := some (bounds.2.elim value fun current => min current value)
  match op with
  | .eq => some (atLeast value,atMost value)
  | .lt => (checkedSigned w (value - 1)).map fun value => (bounds.1,atMost value)
  | .ltEq => some (bounds.1,atMost value)
  | .gt => (checkedSigned w (value + 1)).map fun value => (atLeast value,bounds.2)
  | .gtEq => some (atLeast value,bounds.2)
  | .notEq => none

namespace DecimalDateRangeFilter

def addDecimalComparison (filter : DecimalDateRangeFilter) (op : ComparisonOp) (value : ℤ) :
    Option DecimalDateRangeFilter :=
  (addComparison 128 op value (filter.decimalMin,filter.decimalMax)).map fun bounds =>
    { filter with decimalMin := bounds.1,decimalMax := bounds.2 }

def addDateComparison (filter : DecimalDateRangeFilter) (op : ComparisonOp) (value : ℤ) :
    Option DecimalDateRangeFilter :=
  (addComparison 32 op value (filter.dateMin,filter.dateMax)).map fun bounds =>
    { filter with dateMin := bounds.1,dateMax := bounds.2 }

/-- None stands for `false`; there is no error. -/
def addExpr (decimalColumn dateColumn : String) (decimalScale : Int8) (filter : DecimalDateRangeFilter) :
    Expr → Option DecimalDateRangeFilter
  | .boolean (some true) => some filter
  | .and left right =>
    (addExpr decimalColumn dateColumn decimalScale filter left).bind fun filter =>
      addExpr decimalColumn dateColumn decimalScale filter right
  | .comparison comparison =>
    if comparison.column = decimalColumn then
      (literalToDecimalRaw comparison.value decimalScale).bind fun value =>
        filter.addDecimalComparison comparison.op value
    else if comparison.column = dateColumn then
      (literalToDate32 comparison.value).bind fun value => filter.addDateComparison comparison.op value
    else none
  | _ => none

def tryNew (expr : Expr) (decimalColumn dateColumn : String) (decimalScale : Int8) : Option DecimalDateRangeFilter :=
  addExpr decimalColumn dateColumn decimalScale {} expr

def matchesI64 (filter : DecimalDateRangeFilter) (decimal : I64) (date : I32) : Bool :=
  filter.matchesRow decimal.val date.val

end DecimalDateRangeFilter
end Dodam.Execution
