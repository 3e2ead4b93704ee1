import Dodam.Sql.Literals

/-! # Literals and subquery results

The result of a subquery is read, cell by cell, into literals, and literals are
compared with each other and looked up in lists.
-/
namespace Dodam.Sql
open Foundation Execution

section Results

/-- A column of a query result; a type that is not read keeps which rows are NULL. -/
inductive ArrayRef
  | boolean (values : List (Option Bool))
  | int32 (values : List (Option Int32))
  | int64 (values : List (Option Int64))
  | float64 (values : List (Option String))
  | decimal128 (precision : UInt8) (scale : Int8) (values : List (Option ℤ))
  | uint32 (values : List (Option UInt32))
  | date32 (values : List (Option Int32))
  | date64 (values : List (Option Int64))
  | timestampMillisecond (dataType : String) (values : List (Option Int64))
  | utf8 (values : List (Option String))
  | other (dataType : String) (nulls : List Bool)

structure RecordBatch where
  numRows : ℕ
  columns : List ArrayRef

inductive QueryOutput
  | scan (batches : List RecordBatch)
  | aggregate (batches : List RecordBatch)
  | explain

def queryOutputBatches : QueryOutput → Result (List RecordBatch)
  | .scan batches | .aggregate batches => .ok batches
  | .explain => unsupportedSql "EXPLAIN cannot be used as a derived table"

def ArrayRef.isNull (column : ArrayRef) (row : ℕ) : Bool :=
  match column with
  | .boolean values => values[row]? = some none
  | .int32 values | .date32 values => values[row]? = some none
  | .int64 values | .date64 values | .timestampMillisecond _ values => values[row]? = some none
  | .float64 values | .utf8 values => values[row]? = some none
  | .decimal128 _ _ values => values[row]? = some none
  | .uint32 values => values[row]? = some none
  | .other _ nulls => nulls[row]? = some true

def cellValue {α : Type} (values : List (Option α)) (row : ℕ) : Result α :=
  okOr (values[row]?).join (.error .panicked)

def literalValueFromArray (floats : Floats) (column : ArrayRef) (row : ℕ) : Result LiteralValue :=
  match column with
  | .boolean values => (cellValue values row).map .boolean
  | .int32 values => (cellValue values row).map fun value => .int64 value.toInt64
  | .int64 values => (cellValue values row).map .int64
  | .float64 values => (cellValue values row).map .float64
  | .decimal128 _ scale values => (cellValue values row).map fun value => .float64 (floats.ofDecimal value scale)
  | .date32 values => do
    let date ← civilFromDays (← cellValue values row).toInt
    return .utf8 (dateText date)
  | .date64 values => do
    let date ← civilFromDays ((← cellValue values row).toInt.tdiv 86400000)
    return .utf8 (dateText date)
  | .utf8 values => (cellValue values row).map .utf8
  | .uint32 _ => unsupportedSql "IN subquery result type UInt32 is not supported yet"
  | .timestampMillisecond dataType _ | .other dataType _ =>
    unsupportedSql s!"IN subquery result type {dataType} is not supported yet"

def literalValuesFromBatch (floats : Floats) (batch : RecordBatch) : Result (List LiteralValue) := do
  let column ← okOr batch.columns.head? (.error .panicked)
  (List.range batch.numRows).mapM fun row =>
    if column.isNull row then .ok .null else literalValueFromArray floats column row

def literalValuesFromSingleColumnBatches (floats : Floats) (batches : List RecordBatch) :
    Result (List LiteralValue) :=
  match batches.head? with
  | none => .ok []
  | some first =>
    if first.columns.length ≠ 1 then unsupportedSql "IN subquery must return exactly one column"
    else (batches.mapM (literalValuesFromBatch floats)).map List.flatten

def scalarLiteralValueFromBatches (floats : Floats) (batches : List RecordBatch) : Result LiteralValue := do
  match ← literalValuesFromSingleColumnBatches floats batches with
  | [] => return .null
  | [value] => return value
  | _ => unsupportedSql "scalar subquery must return at most one row"

end Results

section Compare
variable (floats : Floats)

def literalOrdering : LiteralValue → LiteralValue → Option Ordering
  | .boolean left,.boolean right => some (Ord.compare left right)
  | .int64 left,.int64 right => some (Ord.compare left.toInt right.toInt)
  | .float64 left,.float64 right => floats.partialCmp left right
  | .int64 left,.float64 right => floats.partialCmp (floats.ofInt left) right
  | .float64 left,.int64 right => floats.partialCmp left (floats.ofInt right)
  | .utf8 left,.utf8 right => some (Ord.compare left right)
  | _,_ => none

def orderingHolds (op : ComparisonOp) (ordering : Ordering) : Bool :=
  match op with
  | .eq => ordering.isEq
  | .notEq => !ordering.isEq
  | .lt => ordering.isLT
  | .ltEq => ordering.isLT || ordering.isEq
  | .gt => ordering.isGT
  | .gtEq => ordering.isGT || ordering.isEq

def comparisonDisplay : ComparisonOp → String
  | .eq => "="
  | .notEq => "<>"
  | .lt => "<"
  | .ltEq => "<="
  | .gt => ">"
  | .gtEq => ">="

def compareLiteralValues (left : LiteralValue) (op : ComparisonOp) (right : LiteralValue) : Result (Option Bool) :=
  if left = .null ∨ right = .null then .ok none
  else
    match literalOrdering floats left right with
    | some ordering => .ok (some (orderingHolds op ordering))
    | none => invalidFilter s!"{left.display} {comparisonDisplay op} {right.display}"

def subqueryValuesContainNull (values : List LiteralValue) : Bool := values.any (· = .null)

def nonNullSubqueryValues (values : List LiteralValue) : List LiteralValue := values.filter (· ≠ .null)

/-- Values that cannot be compared with the tested one are passed over. -/
def evaluateLiteralInValues (value : LiteralValue) (values : List LiteralValue) (negated : Bool) : Option Bool :=
  if value = .null then none
  else
    let matched := (nonNullSubqueryValues values).any fun candidate =>
      match compareLiteralValues floats value .eq candidate with
      | .ok (some true) => true
      | _ => false
    let result := if matched then some true else if subqueryValuesContainNull values then none else some false
    if negated then result.map not else result

end Compare

section Lists
variable (host : Host)

def nonNullLiteralValues (list : List SqlExpr) : Result (List LiteralValue) :=
  (list.mapM (sqlLiteralValue host)).map nonNullSubqueryValues

def literalListContainsNull : List SqlExpr → Result Bool
  | [] => .ok false
  | expr :: list => do
    let value ← sqlLiteralValue host expr
    if value = .null then return true else literalListContainsNull list

def evaluateLiteralInListFrom (value : LiteralValue) (negated : Bool) (hasNull : Bool) :
    List SqlExpr → Result (Option Bool)
  | [] => .ok (if hasNull then none else some negated)
  | candidate :: list => do
    let candidate ← sqlLiteralValue host candidate
    if candidate = .null then evaluateLiteralInListFrom value negated true list
    else
      let equal ← compareLiteralValues host.floats value .eq candidate
      if equal = some true then return some !negated else evaluateLiteralInListFrom value negated hasNull list

def evaluateLiteralInList (value : LiteralValue) (list : List SqlExpr) (negated : Bool) : Result (Option Bool) :=
  evaluateLiteralInListFrom host value negated false list

end Lists
end Dodam.Sql
