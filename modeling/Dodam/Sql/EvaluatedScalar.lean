import Dodam.Sql.BatchColumns
import Dodam.Sql.Decimals

/-! # Evaluated scalars

The values that a scalar expression takes on the rows of a batch, the readings of a literal and
of a value at another type, and comparisons.
-/
namespace Dodam.Sql
open Foundation Execution

/-- What else the scalar evaluator takes from outside. -/
structure ScalarHost extends Host where
  tables : CaseTables
  toUppercase : String → String
  toInt64 : String → Int64
  mul : String → String → String
  div : String → String → String
  abs : String → String
  round : String → String
  floor : String → String
  ceil : String → String
  decimalExpressionFast : Bool
  evaluateOther : String → NamedBatch → Result ArrayRef

/-- The values of the rows. Integers are within the type of their constructor. -/
inductive ScalarValues
  | int64 (values : List (Option ℤ))
  | float64 (values : List (Option String))
  | decimal128 (values : List (Option ℤ)) (precision : UInt8) (scale : Int8)
  | utf8 (values : List (Option String))
  | boolean (values : List (Option Bool))
  | date32 (values : List (Option ℤ))
  | timestampMillisecond (values : List (Option ℤ))

/-- Values, or an array that is not read yet. -/
inductive EvaluatedScalar
  | array (array : ArrayRef)
  | values (values : ScalarValues)

def ScalarValues.dataType : ScalarValues → String
  | int64 _ => "Int64"
  | float64 _ => "Float64"
  | decimal128 _ precision scale => s!"Decimal128({precision.toNat}, {scale.toInt})"
  | utf8 _ => "Utf8"
  | boolean _ => "Boolean"
  | date32 _ => "Date32"
  | timestampMillisecond _ => "Timestamp(ms)"

section Read
variable (host : ScalarHost)

def evaluatedArray : ArrayRef → Result ScalarValues
  | .int32 values => .ok (.int64 (values.map (Option.map Int32.toInt)))
  | .int64 values => .ok (.int64 (values.map (Option.map Int64.toInt)))
  | .float64 values => .ok (.float64 values)
  | .utf8 values => .ok (.utf8 values)
  | .boolean values => .ok (.boolean values)
  | .date32 values => .ok (.date32 (values.map (Option.map Int32.toInt)))
  | .date64 values | .timestampMillisecond _ values =>
    .ok (.timestampMillisecond (values.map (Option.map Int64.toInt)))
  | .decimal128 precision scale values => .ok (.decimal128 values precision scale)
  | .uint32 _ => unsupportedSql "projection expression column type UInt32 is not supported yet"
  | .other dataType _ => unsupportedSql s!"projection expression column type {dataType} is not supported yet"

/-- `materialize_array_scalar`. -/
def EvaluatedScalar.materialize : EvaluatedScalar → Result ScalarValues
  | .array column => evaluatedArray column
  | .values read => .ok read

def evaluatedLiteral (rows : ℕ) : LiteralValue → ScalarValues
  | .null => .utf8 (List.replicate rows none)
  | .boolean value => .boolean (List.replicate rows (some value))
  | .int64 value => .int64 (List.replicate rows (some value.toInt))
  | .float64 display => .float64 (List.replicate rows (some display))
  | .utf8 value => .utf8 (List.replicate rows (some value))

/-- `as f64` of an integer. -/
def intAsF64 (value : ℤ) : String := host.floats.ofInt (Int64.ofInt value)

/-- A whole number is printed with one digit behind the point. -/
def formatF64ForSqlVarchar (display : String) : String :=
  let digits := stripSign display.toList
  if digits ≠ [] ∧ digits.all Char.isDigit then display ++ ".0" else display

def decimalScaleF64 (scale : Int8) : Result Unit :=
  if (decimalScaleI128 scale).isSome then .ok ()
  else unsupportedSql s!"decimal scale {scale.toInt} overflows"

def scalarAsI64 : ScalarValues → Result (List (Option ℤ))
  | .int64 values | .date32 values | .timestampMillisecond values => .ok values
  | other => typeMismatch s!"cannot use {other.dataType} in integer arithmetic"

def scalarAsF64 : ScalarValues → Result (List (Option String))
  | .int64 values | .date32 values | .timestampMillisecond values =>
    .ok (values.map (Option.map (intAsF64 host)))
  | .float64 values => .ok values
  | .decimal128 values _ scale =>
    (decimalScaleF64 scale).map fun _ => values.map (Option.map fun value => host.floats.ofDecimal value scale)
  | other => typeMismatch s!"cannot use {other.dataType} in floating point arithmetic"

def scalarAsUtf8 : ScalarValues → List (Option String)
  | .utf8 values => values
  | .int64 values => values.map (Option.map toString)
  | .float64 values => values.map (Option.map formatF64ForSqlVarchar)
  | .decimal128 values _ scale => values.map (Option.map fun value => formatDecimal128Value value scale)
  | .boolean values => values.map (Option.map toString)
  | .date32 values => values.map (Option.map formatDate32Days)
  | .timestampMillisecond values => values.map (Option.map formatTimestampMillis)

end Read

theorem scalarAsF64_decimal {host : ScalarHost} {values : List (Option ℤ)} {precision : UInt8} {scale : Int8}
    (h : (decimalScaleI128 scale).isSome = true) : scalarAsF64 host (.decimal128 values precision scale) =
      .ok (values.map (Option.map fun value => host.floats.ofDecimal value scale)) := by
  rw [scalarAsF64,decimalScaleF64,if_pos h]
  rfl

section Literal
variable (host : ScalarHost)

def literalTypeName : LiteralValue → String
  | .null => "NULL"
  | .boolean _ => "BOOLEAN"
  | .int64 _ => "INTEGER"
  | .float64 _ => "DOUBLE"
  | .utf8 _ => "VARCHAR"

def literalAsI64ForType : LiteralValue → Result (Option ℤ)
  | .null => .ok none
  | .int64 value => .ok (some value.toInt)
  | .float64 display => .ok (some (host.toInt64 display).toInt)
  | .utf8 value =>
    (okOr (parseSigned 64 value.toList) (invalidCast s!"cannot cast '{value}' to integer")).map some
  | .boolean value => .ok (some (if value then 1 else 0))

def literalAsF64ForType : LiteralValue → Result (Option String)
  | .null => .ok none
  | .int64 value => .ok (some (host.floats.ofInt value))
  | .float64 display => .ok (some display)
  | .utf8 value => (okOr (host.floats.parse value) (invalidCast s!"cannot cast '{value}' to double")).map some
  | .boolean value => .ok (some (if value then "1" else "0"))

def literalAsBoolForType : LiteralValue → Result (Option Bool)
  | .null => .ok none
  | .boolean value => .ok (some value)
  | other => invalidCast s!"cannot cast {literalTypeName other} to boolean"

def literalAsDate32ForType : LiteralValue → Result (Option ℤ)
  | .null => .ok none
  | .utf8 value => (parseDate32Days value).map some
  | .int64 value =>
    (okOr (checkedSigned 32 value.toInt) (invalidCast s!"cannot cast {value.toInt} to DATE")).map some
  | other => invalidCast s!"cannot cast {literalTypeName other} to DATE"

def literalAsDecimal128ForType (precision : UInt8) (scale : Int8) : LiteralValue → Result (Option ℤ)
  | .null => .ok none
  | .int64 value => (decimalOfInt value precision scale).map some
  | .float64 text | .utf8 text => (parseDecimalLiteralToScaled text scale precision).map some
  | other => invalidCast s!"cannot cast {literalTypeName other} to DECIMAL({precision.toNat},{scale.toInt})"

def literalAsUtf8ForType : LiteralValue → Option String
  | .null => none
  | .utf8 value => some value
  | .int64 value => some (toString value.toInt)
  | .float64 display => some (formatF64ForSqlVarchar display)
  | .boolean value => some (toString value)

end Literal

section Compare
variable (floats : Floats)

def compareOptionalValues {α : Type} [Ord α] (op : ComparisonOp) : Option α → Option α → Option Bool
  | some left,some right => some (orderingHolds op (Ord.compare left right))
  | _,_ => none

/-- No comparison with NaN holds but `<>`. -/
def compareOptionalF64 (op : ComparisonOp) : Option String → Option String → Option Bool
  | some left,some right =>
    some (match floats.partialCmp left right with
      | some ordering => orderingHolds op ordering
      | none => op = .notEq)
  | _,_ => none

/-- Decimals that do not fit after their alignment compare as NULL. -/
def compareDecimals (op : ComparisonOp) (leftFactor rightFactor : ℤ) : Option ℤ → Option ℤ → Option Bool
  | some left,some right =>
    compareOptionalValues op (checkedSigned 128 (left * leftFactor)) (checkedSigned 128 (right * rightFactor))
  | _,_ => none

end Compare

section CompareScalars
variable (host : ScalarHost)

def booleanOperands : ScalarValues → Result (List (Option Bool))
  | .boolean values => .ok values
  | _ => unsupportedSql "boolean comparisons require boolean operands"

def compareAsF64 (op : ComparisonOp) (left right : ScalarValues) : Result (List (Option Bool)) := do
  let left ← scalarAsF64 host left
  let right ← scalarAsF64 host right
  return List.zipWith (compareOptionalF64 host.floats op) left right

/-- `compare_evaluated_scalars`, on values that are read. -/
def compareScalarValues (op : ComparisonOp) (left right : ScalarValues) : Result (List (Option Bool)) :=
  match left,right with
  | .utf8 _,_ | _,.utf8 _ =>
    .ok (List.zipWith (compareOptionalValues op) (scalarAsUtf8 left) (scalarAsUtf8 right))
  | .boolean _,_ | _,.boolean _ => do
    let left ← booleanOperands left
    let right ← booleanOperands right
    return List.zipWith (compareOptionalValues op) left right
  | .float64 _,_ | _,.float64 _ => compareAsF64 host op left right
  | .decimal128 leftValues _ leftScale,.decimal128 rightValues _ rightScale => do
    let scale := max leftScale rightScale
    let leftFactor ← decimalAlignFactor leftScale scale
    let rightFactor ← decimalAlignFactor rightScale scale
    return List.zipWith (compareDecimals op leftFactor rightFactor) leftValues rightValues
  | .decimal128 _ _ _,_ | _,.decimal128 _ _ _ => compareAsF64 host op left right
  | left,right => do
    let left ← scalarAsI64 left
    let right ← scalarAsI64 right
    return List.zipWith (compareOptionalValues op) left right

def compareEvaluatedScalars (op : ComparisonOp) (left right : EvaluatedScalar) : Result (List (Option Bool)) := do
  let left ← left.materialize
  let right ← right.materialize
  compareScalarValues host op left right

end CompareScalars
end Dodam.Sql
