import Dodam.Sql.BatchColumns
import Dodam.Sql.Meaning

/-! # Subqueries rewritten to literals

Over a join the subqueries of a predicate are executed beforehand and replaced by literal
expressions. The rewritten query is printed and parsed again.
-/
namespace Dodam.Sql
open Execution

def literalValueToSqlExpr : LiteralValue → SqlExpr
  | .null => .value .null
  | .boolean value => .value (.boolean value)
  | .int64 value => .value (.number (toString value.toInt) false)
  | .float64 display => .value (.number display false)
  | .utf8 value => .value (.singleQuotedString value)

section Rewrite
variable (floats : Floats) (executeSql : Query → Result QueryOutput)

/-- The batches of a subquery, or none where it is correlated or not supported. -/
def materializableBatches (subquery : Query) : Result (Option (List RecordBatch)) :=
  match executeSql subquery with
  | .ok output => (queryOutputBatches output).map some
  | .error (.err (.unsupportedSql _)) | .error (.err (.unknownColumn _)) | .error (.err (.unknownTableQualifier _)) =>
    .ok none
  | .error error => .error error

def rewriteExists (subquery : Query) (negated : Bool) : Result (Option (SqlExpr × Bool)) :=
  (materializableBatches executeSql subquery).map fun batches => batches.map fun batches =>
    let found := batches.any fun batch => 0 < batch.numRows
    (.value (.boolean (if negated then !found else found)),true)

def inLiterals (expr : SqlExpr) (values : List LiteralValue) (negated : Bool) : SqlExpr :=
  if values.isEmpty then .value (.boolean negated) else .inList expr (values.map literalValueToSqlExpr) negated

def rewriteInSubquery (expr : SqlExpr) (subquery : Query) (negated : Bool) : Result (Option (SqlExpr × Bool)) := do
  match ← materializableBatches executeSql subquery with
  | none => return none
  | some batches =>
    let values ← literalValuesFromSingleColumnBatches floats batches
    return some (inLiterals expr values negated,true)

def rewriteScalarSubquery (subquery : Query) : Result (Option (SqlExpr × Bool)) := do
  match ← materializableBatches executeSql subquery with
  | none => return none
  | some batches =>
    let value ← scalarLiteralValueFromBatches floats batches
    return some (literalValueToSqlExpr value,true)

mutual

/-- The rewritten predicate, and whether a subquery was replaced. -/
def rewriteMaterializableSubqueriesToLiterals : SqlExpr → Result (Option (SqlExpr × Bool))
  | .existsSubquery subquery negated => rewriteExists executeSql subquery negated
  | .inSubquery expr subquery negated => rewriteInSubquery floats executeSql expr subquery negated
  | .subquery subquery => rewriteScalarSubquery floats executeSql subquery
  | .binaryOp left op right => do
    match ← rewriteMaterializableSubqueriesToLiterals left with
    | none => return none
    | some (left,changedLeft) =>
      return (← rewriteMaterializableSubqueriesToLiterals right).map fun (right,changedRight) =>
        (.binaryOp left op right,changedLeft || changedRight)
  | .nested expr => do
    return (← rewriteMaterializableSubqueriesToLiterals expr).map fun (expr,changed) => (.nested expr,changed)
  | .unaryOp op expr => do
    return (← rewriteMaterializableSubqueriesToLiterals expr).map fun (expr,changed) => (.unaryOp op expr,changed)
  | .isNull expr => do
    return (← rewriteMaterializableSubqueriesToLiterals expr).map fun (expr,changed) => (.isNull expr,changed)
  | .isNotNull expr => do
    return (← rewriteMaterializableSubqueriesToLiterals expr).map fun (expr,changed) => (.isNotNull expr,changed)
  | .inList expr list negated => do
    match ← rewriteMaterializableSubqueriesToLiterals expr with
    | none => return none
    | some (expr,changed) =>
      return (← rewriteMaterializableSubqueriesInList list).map fun (list,changedList) =>
        (.inList expr list negated,changed || changedList)
  | .between expr negated low high => do
    match ← rewriteMaterializableSubqueriesToLiterals expr with
    | none => return none
    | some (expr,changed) =>
      match ← rewriteMaterializableSubqueriesToLiterals low with
      | none => return none
      | some (low,changedLow) =>
        return (← rewriteMaterializableSubqueriesToLiterals high).map fun (high,changedHigh) =>
          (.between expr negated low high,changed || changedLow || changedHigh)
  | .like expr pattern negated any escapeChar caseInsensitive =>
    if caseInsensitive then .ok (some (.like expr pattern negated any escapeChar caseInsensitive,false))
    else do
      match ← rewriteMaterializableSubqueriesToLiterals expr with
      | none => return none
      | some (expr,changed) =>
        return (← rewriteMaterializableSubqueriesToLiterals pattern).map fun (pattern,changedPattern) =>
          (.like expr pattern negated any escapeChar caseInsensitive,changed || changedPattern)
  | expr => .ok (some (expr,false))

def rewriteMaterializableSubqueriesInList : List SqlExpr → Result (Option (List SqlExpr × Bool))
  | [] => .ok (some ([],false))
  | item :: list => do
    match ← rewriteMaterializableSubqueriesToLiterals item with
    | none => return none
    | some (item,changed) =>
      return (← rewriteMaterializableSubqueriesInList list).map fun (list,changedList) =>
        (item :: list,changed || changedList)

end

end Rewrite
end Dodam.Sql

/-! ## What a subquery is compared as

The cells of a subquery have values of their own, and a test of a column against
them has a truth value whatever literals they are turned into. A cell reads
exactly for a type of column when its literal stands, for a column of that type,
for the value of the cell.
-/
namespace Dodam.Sql
open Foundation Execution

section Values

/-- A value, whatever type it is stored at; a date and a time are seconds. Doubles are compared among themselves. -/
inductive Datum (δ : Type*)
  | boolean (value : Bool)
  | number (value : ℚ)
  | instant (seconds : ℚ)
  | text (value : String)
  | double (value : δ)

/-- A cell of a subquery's result. What other types hold is not read. -/
inductive Cell
  | null
  | boolean (value : Bool)
  | integer (value : Int64)
  | decimal (value : ℤ) (scale : Int8)
  | double (display : String)
  | date (days : Int32)
  | dateTime (millis : Int64)
  | text (value : String)
  | unread
deriving DecidableEq

/-- The types of columns that a filter compares with literals. -/
inductive TestedType
  | int32
  | int64
  | uint64
  | boolean
  | date32
  | date64
  | scaled (type : ScaledType)
  | utf8
  | float64
deriving DecidableEq

def ArrayRef.cell (column : ArrayRef) (row : ℕ) : Cell :=
  match column with
  | .boolean values => (values[row]?).join.elim .null .boolean
  | .int32 values => (values[row]?).join.elim .null fun value => .integer value.toInt64
  | .int64 values => (values[row]?).join.elim .null .integer
  | .float64 values => (values[row]?).join.elim .null .double
  | .decimal128 _ scale values => (values[row]?).join.elim .null fun value => .decimal value scale
  | .date32 values => (values[row]?).join.elim .null .date
  | .date64 values => (values[row]?).join.elim .null .dateTime
  | .utf8 values => (values[row]?).join.elim .null .text
  | .uint32 values => (values[row]?).join.elim .null fun _ => .unread
  | .timestampMillisecond _ values => (values[row]?).join.elim .null fun _ => .unread
  | .other _ nulls => if nulls[row]? = some true then .null else .unread

def RecordBatch.cells (batch : RecordBatch) : List Cell :=
  batch.columns.head?.elim [] fun column => (List.range batch.numRows).map column.cell

end Values

section Columns
variable {γ : Type*}

def scaledDatum {δ : Type*} (type : ScaledType) (value : ℤ) : Datum δ :=
  match type with
  | .decimal128 _ _ => .number (value / type.unitsPerOne)
  | .timestamp _ => .instant (value / type.unitsPerOne)

/-- The values of a column, of a type that is compared with literals. -/
def storedData {δ : Type*} : Column → Option (TestedType × List (Option (Datum δ)))
  | .int32 values => some (.int32,values.map (Option.map fun value => .number value.toInt))
  | .int64 values => some (.int64,values.map (Option.map fun value => .number value.toInt))
  | .uint64 values => some (.uint64,values.map (Option.map fun value => .number value.toNat))
  | .boolean values => some (.boolean,values.map (Option.map .boolean))
  | .date32 values => some (.date32,values.map (Option.map fun value => .instant (value.toInt * 86400)))
  | .date64 values => some (.date64,values.map (Option.map fun value => .instant (value.toInt / 1000)))
  | .scaled type values => some (.scaled type,values.map (Option.map (scaledDatum type)))
  | .utf8 values => some (.utf8,values.map (Option.map .text))
  | .unsupported _ _ => none

/-- A double is always compared; whether it is NULL its order with another says. -/
def columnData : BatchColumn γ → Option (TestedType × List (Option (Datum γ)))
  | .stored column => storedData column
  | .float64 values => some (.float64,values.map fun value => some (.double value))

end Columns

section Tests
variable {γ : Type*} (floats : Floats) (order : γ → String → Option Ordering)

/-- Two values of one kind are compared; `order` compares a stored double with the one that a text prints. -/
def Datum.compare (op : ComparisonOp) : Datum γ → Datum String → Option Bool
  | .boolean a,.boolean b => some (decide (op.Holds a b))
  | .number a,.number b => some (decide (op.Holds a b))
  | .instant a,.instant b => some (decide (op.Holds a b))
  | .text a,.text b => some (decide (op.Holds a b))
  | .double a,.double b => (order a b).map (orderingHolds op)
  | _,_ => none

/-- `LiteralValue::as_f64`. -/
def literalAsDouble (column : String) : LiteralValue → Result String
  | .int64 value => .ok (floats.ofInt value)
  | .float64 display => .ok display
  | value => invalidComparison column value.display

/-- The kernel of double columns, on a literal that is not NULL. -/
def ComparesDoubles (kernels : Kernels γ) : Prop :=
  ∀ values comparison, kernels.float64Comparison values comparison =
    (literalAsDouble floats comparison.column comparison.value).map fun bound => values.map fun value =>
      (order value bound).map (orderingHolds comparison.op)

/-- What a cell is for a column of the type: against doubles numbers are doubles. -/
def Cell.datum (type : TestedType) : Cell → Option (Datum String)
  | .null | .unread => none
  | .boolean value => some (.boolean value)
  | .integer value => some (if type = .float64 then .double (floats.ofInt value) else .number value.toInt)
  | .decimal value scale =>
    some (if type = .float64 then .double (floats.ofDecimal value scale) else .number (value / 10 ^ scale.toInt))
  | .double display => some (.double display)
  | .date days => some (.instant (days.toInt * 86400))
  | .dateTime millis => some (.instant (millis.toInt / 1000))
  | .text value => some (.text value)

def compareCell (op : ComparisonOp) (type : TestedType) (x : Option (Datum γ)) (cell : Cell) : Option Bool :=
  x.bind fun x => (cell.datum floats type).bind (x.compare order op)

/-- How a predicate on a column uses a subquery. -/
inductive SubqueryUse
  | comparison (op : ComparisonOp)
  | membership (negated : Bool)

def SubqueryUse.Allows (use : SubqueryUse) (cells : List Cell) : Prop :=
  match use with
  | .comparison _ => cells.length ≤ 1
  | .membership _ => True

/-- The truth value of the predicate on the subquery's own values. -/
def SubqueryUse.truth (use : SubqueryUse) (type : TestedType) (cells : List Cell) (x : Option (Datum γ)) : Option Bool :=
  match use with
  | .comparison op => cells.head?.bind (compareCell floats order op type x)
  | .membership negated =>
    negateIf negated (cells.foldl (fun found cell => orKleene found (compareCell floats order .eq type x cell)) (some false))

end Tests

section Exact
variable (floats : Floats)

def TestedType.IsNumber : TestedType → Prop
  | .int32 | .int64 | .uint64 | .float64 | .scaled (.decimal128 _ _) => True
  | _ => False

def TestedType.IsInstant : TestedType → Prop
  | .date32 | .date64 | .scaled (.timestamp _) => True
  | _ => False

/-- Columns of the type may be compared with the cell. -/
def Cell.Suits (type : TestedType) : Cell → Prop
  | .null | .unread => True
  | .boolean _ => type = .boolean
  | .integer _ | .decimal _ _ => type.IsNumber
  | .double _ => type = .float64
  | .date _ | .dateTime _ => type.IsInstant
  | .text _ => type = .utf8

/-- A type of decimals that literals are brought to. -/
def TakesLiterals (precision : UInt8) (scale : Int8) : Prop :=
  validPrecisionAndScale precision scale = true ∧ 0 ≤ scale.toInt

def IntegerFits (value : ℤ) : TestedType → Prop
  | .int32 => InSigned 32 value
  | .uint64 => 0 ≤ value
  | .scaled (.decimal128 precision scale) =>
    TakesLiterals precision scale ∧ InSigned 128 (value * 10 ^ scale.toInt.toNat)
  | _ => True

/-- The double that is nearest to a decimal prints, up to the scale of the column, as the decimal. -/
def DecimalPrints (value : ℤ) (scale : Int8) : TestedType → Prop
  | .float64 => True
  | .scaled (.decimal128 precision columnScale) => TakesLiterals precision columnScale ∧
      ∃ n : Numeral, n.Spells isWhitespace (floats.ofDecimal value scale).toList ∧
        InSigned 128 (n.kept columnScale.toInt.toNat) ∧
        (towardZero (n.value * 10 ^ columnScale.toInt) : ℚ) = value / 10 ^ scale.toInt * 10 ^ columnScale.toInt
  | _ => False

/-- A midnight from the year 0 on, that the type can hold. -/
def MidnightFits (days : ℤ) : TestedType → Prop
  | .date32 => -719528 ≤ days ∧ InSigned 32 days
  | .date64 | .scaled (.timestamp .second) | .scaled (.timestamp .millisecond) =>
    -719528 ≤ days ∧ InSigned 64 (days * 86400000)
  | .scaled (.timestamp .microsecond) => -719528 ≤ days ∧ InSigned 64 (days * 86400000 * 1000)
  | .scaled (.timestamp .nanosecond) => -719528 ≤ days ∧ InSigned 64 (days * 86400000 * 1000000)
  | _ => False

/-- The literal of the cell stands for its value, for columns of the type. -/
def Cell.ReadsExactly (type : TestedType) : Cell → Prop
  | .null | .boolean _ | .double _ | .text _ => True
  | .integer value => IntegerFits value.toInt type
  | .decimal value scale => DecimalPrints floats value scale type
  | .date days => MidnightFits days.toInt type
  | .dateTime millis => 86400000 ∣ millis.toInt ∧ MidnightFits (millis.toInt / 86400000) type
  | .unread => False

end Exact
end Dodam.Sql
