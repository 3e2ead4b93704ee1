import Dodam.Sql.EvaluatedScalar
import Dodam.Sql.ScalarParser

/-! # Evaluation of scalar expressions

The value of a scalar expression on the rows of a batch: columns, literals, arithmetic, casts,
COALESCE and the functions on texts and numbers.
-/
namespace Dodam.Sql
open Foundation Execution

section Arithmetic
variable (host : ScalarHost)

def decimalOverflow {α : Type} (operation : String) : Result α := unsupportedSql s!"decimal {operation} overflow"

/-- A row that is NULL on either side is NULL. -/
def mapRows {α β : Type} (f : α → α → Result (Option β)) (left right : List (Option α)) :
    Result (List (Option β)) :=
  (List.zip left right).mapM fun
    | (some left,some right) => f left right
    | _ => .ok none

def addDecimals (subtract : Bool) (leftScale rightScale scale : Int8) (left right : ℤ) : Result (Option ℤ) := do
  let left ← alignDecimalValue left leftScale scale
  let right ← alignDecimalValue right rightScale scale
  (okOr (checkedSigned 128 (if subtract then left - right else left + right)) (decimalOverflow "arithmetic")).map some

def multiplyDecimals (left right : ℤ) : Result (Option ℤ) :=
  (okOr (checkedSigned 128 (left * right)) (decimalOverflow "multiply")).map some

def f64Arithmetic (op : BinaryOperator) (left right : String) : Option String :=
  match op with
  | .plus => some (host.floats.add left right)
  | .minus => some (host.floats.sub left right)
  | .multiply => some (host.mul left right)
  | .divide => some (host.div left right)
  | _ => none

/-- An overflow, or a division by zero, is NULL. -/
def i64Arithmetic (op : BinaryOperator) (left right : ℤ) : Result (Option ℤ) :=
  match op with
  | .plus => .ok (checkedSigned 64 (left + right))
  | .minus => .ok (checkedSigned 64 (left - right))
  | .multiply => .ok (checkedSigned 64 (left * right))
  | .divide =>
    if right = 0 then .ok none
    else (okOr (checkedSigned 64 (left.tdiv right)) (.error .panicked)).map some
  | _ => .ok none

def arithmeticAsF64 (op : BinaryOperator) (left right : ScalarValues) : Result ScalarValues := do
  let left ← scalarAsF64 host left
  let right ← scalarAsF64 host right
  let values ← mapRows (fun left right => .ok (f64Arithmetic host op left right)) left right
  return .float64 values

/-- `evaluate_binary_scalar`, on values that are read. -/
def evaluateBinaryScalar (op : BinaryOperator) (left right : ScalarValues) : Result ScalarValues :=
  match left,right with
  | .decimal128 leftValues leftPrecision leftScale,.decimal128 rightValues rightPrecision rightScale =>
    if op = .plus ∨ op = .minus then do
      let scale := max leftScale rightScale
      let precision := min (max leftPrecision.toNat rightPrecision.toNat + 1) 38
      let values ← mapRows (addDecimals (op = .minus) leftScale rightScale scale) leftValues rightValues
      return .decimal128 values (UInt8.ofNat precision) scale
    else if op = .multiply then do
      let scale ← okOr (checkedSigned 8 (leftScale.toInt + rightScale.toInt))
        (unsupportedSql "decimal multiply scale overflow")
      let precision := min (max (leftPrecision.toNat + rightPrecision.toNat) 18) 38
      let values ← mapRows multiplyDecimals leftValues rightValues
      return .decimal128 values (UInt8.ofNat precision) (Int8.ofInt scale)
    else arithmeticAsF64 host op left right
  | .float64 _,_ | _,.float64 _ | .decimal128 _ _ _,_ | _,.decimal128 _ _ _ => arithmeticAsF64 host op left right
  | left,right => do
    let left ← scalarAsI64 left
    let right ← scalarAsI64 right
    (mapRows (i64Arithmetic op) left right).map .int64

/-- The numbers of a decimal column whose precision is small, and its scale. -/
def decimalScalarColumn (batch : NamedBatch) : ScalarSqlExpression → Result (Option (List (Option ℤ) × Int8))
  | .column column => do
    match ← okOr (batch.columns.find? fun field => field.1 = column) (unknownColumn column) with
    | (_,.decimal128 precision scale values) =>
      return if 18 < precision.toNat ∨ (decimalScaleI128 scale).isNone then none else some (values,scale)
    | _ => return none
  | _ => .ok none

def scalarLiteralIsOne : ScalarSqlExpression → Bool
  | .literal (.int64 value) => value = 1
  | .literal (.float64 display) => display = "1"
  | _ => false

def decimalOneMinusColumn (batch : NamedBatch) : ScalarSqlExpression → Result (Option (List (Option ℤ) × Int8))
  | .binary left op right =>
    if op ≠ .minus ∨ !scalarLiteralIsOne left then .ok none else decimalScalarColumn batch right
  | _ => .ok none

/-- A decimal column times one minus another one. -/
def decimalDiscountProduct (batch : NamedBatch) (value complement : ScalarSqlExpression) :
    Result (Option (List (Option String))) := do
  match ← decimalScalarColumn batch value with
  | none => return none
  | some (values,scale) =>
    match ← decimalOneMinusColumn batch complement with
    | none => return none
    | some (complements,complementScale) =>
      let product (value complement : ℤ) : Result (Option String) :=
        .ok (some (host.mul (host.floats.ofDecimal value scale)
          (host.floats.sub "1" (host.floats.ofDecimal complement complementScale))))
      (mapRows product values complements).map some

def evaluateDecimalProductExpression (batch : NamedBatch) (left : ScalarSqlExpression) (op : BinaryOperator)
    (right : ScalarSqlExpression) : Result (Option (List (Option String))) :=
  if !host.decimalExpressionFast ∨ op ≠ .multiply then .ok none
  else do
    match ← decimalDiscountProduct host batch left right with
    | some values => return some values
    | none => decimalDiscountProduct host batch right left

def evaluateAbsScalar : ScalarValues → Result ScalarValues
  | .int64 values =>
    (mapRows (fun value _ => (okOr (checkedSigned 64 |value|) (unsupportedSql "ABS integer overflow")).map some)
      values values).map .int64
  | .float64 values => .ok (.float64 (values.map (Option.map host.abs)))
  | .decimal128 values _ scale => (decimalScaleF64 scale).map fun _ =>
    .float64 (values.map (Option.map fun value => host.abs (host.floats.ofDecimal value scale)))
  | other => typeMismatch s!"cannot use {other.dataType} in ABS"

def evaluateF64Unary (op : String → String) (value : ScalarValues) : Result ScalarValues :=
  (scalarAsF64 host value).map fun values => .float64 (values.map (Option.map op))

end Arithmetic

section Cast
variable (host : ScalarHost)

def readRows {α β : Type} (read : α → Result β) (values : List (Option α)) : Result (List (Option β)) :=
  values.mapM fun
    | some value => (read value).map some
    | none => .ok none

def castToInt64 : ScalarValues → Result (List (Option ℤ))
  | .int64 values | .date32 values | .timestampMillisecond values => .ok values
  | .float64 values => .ok (values.map (Option.map fun display => (host.toInt64 display).toInt))
  | .decimal128 values _ scale => do
    let factor ← okOr (decimalScaleI128 scale) (unsupportedSql s!"decimal scale {scale.toInt} overflows i128")
    return values.map (Option.map fun value => wrapSigned 64 (value.tdiv factor))
  | .utf8 values => readRows (fun value =>
      okOr (parseSigned 64 value.toList) (invalidCast s!"cannot cast '{value}' to integer")) values
  | .boolean values => .ok (values.map (Option.map fun value => if value then 1 else 0))

def castToFloat64 : ScalarValues → Result (List (Option String))
  | .utf8 values => readRows (fun value =>
      okOr (host.floats.parse value) (invalidCast s!"cannot cast '{value}' to double")) values
  | .boolean values => .ok (values.map (Option.map fun value => if value then "1" else "0"))
  | value => scalarAsF64 host value

def castToDate32 : ScalarValues → Result (List (Option ℤ))
  | .date32 values => .ok values
  | .timestampMillisecond values => .ok (values.map (Option.map fun value => wrapSigned 32 (value / 86400000)))
  | .utf8 values => readRows parseDate32Days values
  | other => invalidCast s!"cannot cast {other.dataType} to DATE"

def castToTimestamp : ScalarValues → Result (List (Option ℤ))
  | .timestampMillisecond values => .ok values
  | .date32 values => .ok (values.map (Option.map fun value => value * 86400000))
  | .utf8 values => readRows parseTimestampMillisValue values
  | other => invalidCast s!"cannot cast {other.dataType} to TIMESTAMP"

def castToDecimal (precision : UInt8) (scale : Int8) : ScalarValues → Result (List (Option ℤ))
  | .decimal128 values _ inputScale =>
    readRows (fun value => rescaleDecimalValue value inputScale scale precision) values
  | .int64 values => do
    if (decimalScaleI128 scale).isNone then scaleOverflows scale
    else readRows (fun value => decimalOfInt (Int64.ofInt value) precision scale) values
  | .float64 values | .utf8 values =>
    readRows (fun value => parseDecimalLiteralToScaled value scale precision) values
  | other => invalidCast s!"cannot cast {other.dataType} to DECIMAL({precision.toNat},{scale.toInt})"

def castEvaluatedScalar (value : ScalarValues) (target : String) : Result ScalarValues :=
  let target := String.ofList (target.toList.map Char.toLower)
  if target ∈ ["varchar","text","string","char","character varying"] then .ok (.utf8 (scalarAsUtf8 value))
  else do
    match ← parseDecimalCastTarget target with
    | some (precision,scale) =>
      let values ← castToDecimal precision scale value
      return .decimal128 values precision scale
    | none =>
      if target ∈ ["bigint","int8","integer","int"] then (castToInt64 host value).map .int64
      else if target ∈ ["double","float8","float","real"] then (castToFloat64 host value).map .float64
      else if target = "date" then (castToDate32 value).map .date32
      else if target ∈ ["timestamp","timestamp without time zone","timestamp with time zone","timestamptz"] then
        (castToTimestamp value).map .timestampMillisecond
      else unsupportedSql s!"unsupported CAST target: {target}"

end Cast

section Coalesce
variable (host : ScalarHost)

def coalesceOptions {α : Type} (left right : List (Option α)) : List (Option α) := List.zipWith Option.or left right

def coalesceValues (left right : ScalarValues) : Result ScalarValues :=
  match left,right with
  | .utf8 values,right => .ok (.utf8 (coalesceOptions values (scalarAsUtf8 right)))
  | left,.utf8 values => .ok (.utf8 (coalesceOptions (scalarAsUtf8 left) values))
  | .float64 values,right => (scalarAsF64 host right).map fun right => .float64 (coalesceOptions values right)
  | left,.float64 values => (scalarAsF64 host left).map fun left => .float64 (coalesceOptions left values)
  | .int64 left,.int64 right => .ok (.int64 (coalesceOptions left right))
  | .boolean left,.boolean right => .ok (.boolean (coalesceOptions left right))
  | .date32 left,.date32 right => .ok (.date32 (coalesceOptions left right))
  | .timestampMillisecond left,.timestampMillisecond right =>
    .ok (.timestampMillisecond (coalesceOptions left right))
  | .decimal128 leftValues precision scale,.decimal128 rightValues rightPrecision rightScale =>
    if precision = rightPrecision ∧ scale = rightScale then
      .ok (.decimal128 (coalesceOptions leftValues rightValues) precision scale)
    else unsupportedSql s!"cannot COALESCE {left.dataType} and {right.dataType}"
  | left,right => unsupportedSql s!"cannot COALESCE {left.dataType} and {right.dataType}"

/-- The literal, read at the type of the column, in place of the NULLs. -/
def coalesceArrayWithLiteral (array : ArrayRef) (literal : LiteralValue) : Result (Option ScalarValues) :=
  let fill {α : Type} (literal : Option α) (values : List (Option α)) : List (Option α) := values.map (·.or literal)
  match array with
  | .int32 values => (literalAsI64ForType host literal).map fun literal =>
    some (.int64 (fill literal (values.map (Option.map Int32.toInt))))
  | .int64 values => (literalAsI64ForType host literal).map fun literal =>
    some (.int64 (fill literal (values.map (Option.map Int64.toInt))))
  | .float64 values => (literalAsF64ForType host literal).map fun literal => some (.float64 (fill literal values))
  | .boolean values => (literalAsBoolForType literal).map fun literal => some (.boolean (fill literal values))
  | .date32 values => (literalAsDate32ForType literal).map fun literal =>
    some (.date32 (fill literal (values.map (Option.map Int32.toInt))))
  | .decimal128 precision scale values => (literalAsDecimal128ForType precision scale literal).map fun literal =>
    some (.decimal128 (fill literal values) precision scale)
  | .utf8 values => .ok (some (.utf8 (fill (literalAsUtf8ForType literal) values)))
  | _ => .ok none

def ArrayRef.hasNulls (array : ArrayRef) : Bool := (List.range array.length).any array.isNull

def columnLiteralCoalesce (batch : NamedBatch) (literalFirst : Bool) :
    ScalarSqlExpression → ScalarSqlExpression → Result (Option EvaluatedScalar)
  | .column column,.literal literal => do
    let array ← batch.outputColumn column
    if literalFirst then
      return some (if literal = .null then .array array else .values (evaluatedLiteral batch.numRows literal))
    else if !array.hasNulls ∨ literal = .null then return some (.array array)
    else
      let values ← coalesceArrayWithLiteral host array literal
      return values.map .values
  | _,_ => .ok none

def evaluateColumnLiteralCoalesce (batch : NamedBatch) : List ScalarSqlExpression → Result (Option EvaluatedScalar)
  | [left,right] => do
    match ← columnLiteralCoalesce host batch false left right with
    | some value => return some value
    | none => columnLiteralCoalesce host batch true right left
  | _ => .ok none

end Coalesce

section Texts

/-- `str::replace`: from the left, without overlaps, and between all characters where nothing is searched for. -/
def replaceFrom (source target : List Char) : ℕ → List Char → List Char
  | _,[] => if source = [] then target else []
  | skip + 1,_ :: text => replaceFrom source target skip text
  | 0,c :: text =>
    if source = [] then target ++ c :: replaceFrom source target 0 text
    else if source.isPrefixOf (c :: text) then target ++ replaceFrom source target (source.length - 1) text
    else c :: replaceFrom source target 0 text

def replaceValue : Option String → Option String → Option String → Option String
  | some value,some source,some target => some (String.ofList (replaceFrom source.toList target.toList 0 value.toList))
  | _,_,_ => none

def concatRow (values : List (List (Option String))) (row : ℕ) : String :=
  String.join (values.map fun values => (values[row]?.join).getD "")

def substringValue (value : Option String) (start : Option ℤ) (length : Option (Option ℤ)) : Option String := do
  let value ← value
  let start ← start
  let startIndex := (start - 1).toNat
  let available := value.length - startIndex
  let take ← match length with
    | some length => length.map fun length => min length.toNat available
    | none => some available
  return String.ofList ((value.toList.drop startIndex).take take)

end Texts

section Evaluate
variable (host : ScalarHost) (batch : NamedBatch)

def materialized (value : Result EvaluatedScalar) : Result ScalarValues := value.bind EvaluatedScalar.materialize

mutual

def evaluateScalarExpression : ScalarSqlExpression → Result EvaluatedScalar
  | .column column => (batch.outputColumn column).map .array
  | .structField column field => do
    let array ← batch.structFieldArray column field
    (evaluatedArray array).map .values
  | .listLength column field => (batch.listLengths column field).map fun lengths =>
    .values (.int64 (lengths.map (Option.map Int32.toInt)))
  | .literal value => .ok (.values (evaluatedLiteral batch.numRows value))
  | .binary left op right => do
    match ← evaluateDecimalProductExpression host batch left op right with
    | some values => return .values (.float64 values)
    | none =>
      let left ← materialized (evaluateScalarExpression left)
      let right ← materialized (evaluateScalarExpression right)
      (evaluateBinaryScalar host op left right).map .values
  | .cast expr target => do
    let value ← materialized (evaluateScalarExpression expr)
    (castEvaluatedScalar host value target).map .values
  | .coalesce values => do
    match ← evaluateColumnLiteralCoalesce host batch values with
    | some value => return value
    | none =>
      match ← evaluateScalarList values with
      | [] => unsupportedSql "COALESCE requires at least one argument"
      | first :: rest => rest.foldlM (fun result value => do
          let result ← result.materialize
          let value ← value.materialize
          (coalesceValues host result value).map .values) first
  | .lower expr => do
    let values := scalarAsUtf8 (← materialized (evaluateScalarExpression expr))
    return .values (.utf8 (values.map (Option.map fun value => String.ofList (host.tables.toLowercase value.toList))))
  | .upper expr => do
    let values := scalarAsUtf8 (← materialized (evaluateScalarExpression expr))
    return .values (.utf8 (values.map (Option.map host.toUppercase)))
  | .length expr => do
    let values := scalarAsUtf8 (← materialized (evaluateScalarExpression expr))
    return .values (.int64 (values.map (Option.map fun value => (value.length : ℤ))))
  | .trim expr => do
    let values := scalarAsUtf8 (← materialized (evaluateScalarExpression expr))
    return .values (.utf8 (values.map (Option.map fun value => String.ofList (trim value.toList))))
  | .abs expr => do
    let value ← materialized (evaluateScalarExpression expr)
    (evaluateAbsScalar host value).map .values
  | .round expr => do
    let value ← materialized (evaluateScalarExpression expr)
    (evaluateF64Unary host host.round value).map .values
  | .floor expr => do
    let value ← materialized (evaluateScalarExpression expr)
    (evaluateF64Unary host host.floor value).map .values
  | .ceil expr => do
    let value ← materialized (evaluateScalarExpression expr)
    (evaluateF64Unary host host.ceil value).map .values
  | .replace expr source target => do
    let values := scalarAsUtf8 (← materialized (evaluateScalarExpression expr))
    let sources := scalarAsUtf8 (← materialized (evaluateScalarExpression source))
    let targets := scalarAsUtf8 (← materialized (evaluateScalarExpression target))
    return .values (.utf8 (List.zipWith (fun value (source,target) => replaceValue value source target)
      values (List.zip sources targets)))
  | .concat values => do
    let values ← evaluateScalarList values
    let values ← values.mapM EvaluatedScalar.materialize
    return .values (.utf8 ((List.range batch.numRows).map fun row => some (concatRow (values.map scalarAsUtf8) row)))
  | .substring expr start length => do
    let values := scalarAsUtf8 (← materialized (evaluateScalarExpression expr))
    let starts ← scalarAsI64 (← materialized (evaluateScalarExpression start))
    let lengths ← evaluateLengths length
    return .values (.utf8 (match lengths with
      | none => List.zipWith (fun value start => substringValue value start none) values starts
      | some lengths => List.zipWith (fun value (start,length) => substringValue value start (some length))
          values (List.zip starts lengths)))
  | .other display => (host.evaluateOther display batch).map .array

def evaluateLengths : Option ScalarSqlExpression → Result (Option (List (Option ℤ)))
  | none => .ok none
  | some expr => do
    let value ← materialized (evaluateScalarExpression expr)
    (scalarAsI64 value).map some

def evaluateScalarList : List ScalarSqlExpression → Result (List EvaluatedScalar)
  | [] => .ok []
  | expr :: exprs => do
    let value ← evaluateScalarExpression expr
    let values ← evaluateScalarList exprs
    return value :: values

end

end Evaluate
end Dodam.Sql
