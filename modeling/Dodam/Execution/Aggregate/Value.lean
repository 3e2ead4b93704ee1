import Mathlib.Data.String.Basic
import Dodam.Execution.ColumnIndex

/-! # Group keys and their order -/
namespace Dodam.Execution

/-- A key value of a group. NULL has the type of its column. -/
inductive GroupValue
  | int64 (value : Option ℤ)
  | uint64 (value : Option ℕ)
  | decimal128 (value : Option ℤ) (precision : ℕ) (scale : ℤ)
  | date32 (value : Option ℤ)
  | date64 (value : Option ℤ)
  | utf8 (value : Option String)
deriving DecidableEq

end Dodam.Execution

/-! ## Values, columns and results of aggregates

The typed columns of a batch, the values an aggregate returns and the groups of
a query. A float is kept by its bits.
-/
namespace Dodam.Execution.Aggregate

abbrev F64 := BitVec 64

namespace F64

def magnitude (x : F64) : ℕ := x.toNat % 2 ^ 63

def isNan (x : F64) : Bool := 0x7ff0000000000000 < x.magnitude

/-- The position of a float that is a number in their order. Both zeros have one. -/
def rank (x : F64) : ℤ := if x.msb then -(x.magnitude : ℤ) else x.magnitude

/-- `f64::partial_cmp`. -/
def partialCmp (x y : F64) : Option Ordering :=
  if x.isNan || y.isNan then none else some (compare x.rank y.rank)

end F64

/-- The types of columns that are read or written. -/
inductive DataType
  | int32
  | int64
  | uint64
  | float64
  | date32
  | date64
  | timestampMillisecond (timezone : Option String)
  | decimal128 (precision : ℕ) (scale : ℤ)
  | utf8
  | other (name : String)
deriving DecidableEq

inductive ArrayRef
  | int32 (values : List (Option ℤ))
  | int64 (values : List (Option ℤ))
  | uint64 (values : List (Option ℕ))
  | float64 (values : List (Option F64))
  | date32 (values : List (Option ℤ))
  | date64 (values : List (Option ℤ))
  | timestampMillisecond (values : List (Option ℤ)) (timezone : Option String)
  | decimal128 (values : List (Option ℤ)) (precision : ℕ) (scale : ℤ)
  | utf8 (values : List (Option String))
  | other (name : String) (values : List (Option Unit))
deriving DecidableEq

inductive Scalar
  | int32 (value : ℤ)
  | int64 (value : ℤ)
  | uint64 (value : ℕ)
  | float64 (value : F64)
  | date32 (value : ℤ)
  | date64 (value : ℤ)
  | timestampMillisecond (value : ℤ)
  | decimal128 (value : ℤ) (scale : ℤ)
  | utf8 (value : String)
  | other
deriving DecidableEq

namespace ArrayRef

def dataType : ArrayRef → DataType
  | int32 _ => .int32
  | int64 _ => .int64
  | uint64 _ => .uint64
  | float64 _ => .float64
  | date32 _ => .date32
  | date64 _ => .date64
  | timestampMillisecond _ timezone => .timestampMillisecond timezone
  | decimal128 _ precision scale => .decimal128 precision scale
  | utf8 _ => .utf8
  | other name _ => .other name

/-- The cells of the column; NULL is `none`. -/
def cells : ArrayRef → List (Option Scalar)
  | int32 values => values.map (·.map .int32)
  | int64 values => values.map (·.map .int64)
  | uint64 values => values.map (·.map .uint64)
  | float64 values => values.map (·.map .float64)
  | date32 values => values.map (·.map .date32)
  | date64 values => values.map (·.map .date64)
  | timestampMillisecond values _ => values.map (·.map .timestampMillisecond)
  | decimal128 values _ scale => values.map (·.map (.decimal128 · scale))
  | utf8 values => values.map (·.map .utf8)
  | other _ values => values.map (·.map fun _ => .other)

def len (column : ArrayRef) : ℕ := column.cells.length

end ArrayRef

structure Field where
  name : String
  array : ArrayRef
deriving DecidableEq

structure RecordBatch where
  columns : List Field
  numRows : ℕ
  lengths : ∀ column ∈ columns, column.array.len = numRows
deriving DecidableEq

namespace RecordBatch

/-- `RecordBatch::try_new`: the first column tells the number of rows. -/
def tryNew (columns : List Field) : Result RecordBatch :=
  match columns with
  | [] => .error (.err .arrow)
  | first :: rest =>
    if h : ∀ column ∈ first :: rest, column.array.len = first.array.len then
      .ok ⟨first :: rest,first.array.len,h⟩
    else .error (.err .arrow)

def column (batch : RecordBatch) (name : String) : Result ArrayRef :=
  (columnIndex (batch.columns.map Field.name) name).bind fun index =>
    match batch.columns[index]? with
    | some field => .ok field.array
    | none => .error .panicked

def cell (batch : RecordBatch) (column row : ℕ) : Option (Option Scalar) :=
  batch.columns[column]?.bind fun field => field.array.cells[row]?

end RecordBatch

inductive AggregateExpr
  | countStar
  | count (column : String)
  | countDistinct (column : String)
  | sum (column : String)
  | avg (column : String)
  | min (column : String)
  | max (column : String)
deriving DecidableEq

namespace AggregateExpr

def referencedColumn : AggregateExpr → Option String
  | countStar => none
  | count column => some column
  | countDistinct column => some column
  | sum column => some column
  | avg column => some column
  | min column => some column
  | max column => some column

def display : AggregateExpr → String
  | countStar => "count(*)"
  | count column => "count(" ++ column ++ ")"
  | countDistinct column => "count(DISTINCT " ++ column ++ ")"
  | sum column => "sum(" ++ column ++ ")"
  | avg column => "avg(" ++ column ++ ")"
  | min column => "min(" ++ column ++ ")"
  | max column => "max(" ++ column ++ ")"

def functionName : AggregateExpr → String
  | countStar => "count"
  | count _ => "count"
  | countDistinct _ => "count"
  | sum _ => "sum"
  | avg _ => "avg"
  | min _ => "min"
  | max _ => "max"

end AggregateExpr

inductive AggregateValue
  | count (value : ℕ)
  | int64 (value : Option ℤ)
  | float64 (value : Option F64)
  | date32 (value : Option ℤ)
  | date64 (value : Option ℤ)
  | timestampMillisecond (value : Option ℤ) (timezone : Option String)
  | decimal128 (value : Option ℤ) (precision : ℕ) (scale : ℤ)
  | utf8 (value : Option String)
deriving DecidableEq

/-- The value, or none for a NULL of any type. -/
def AggregateValue.scalar : AggregateValue → Option Scalar
  | count value => some (.uint64 value)
  | int64 value => value.map .int64
  | float64 value => value.map .float64
  | date32 value => value.map .date32
  | date64 value => value.map .date64
  | timestampMillisecond value _ => value.map .timestampMillisecond
  | decimal128 value _ scale => value.map (.decimal128 · scale)
  | utf8 value => value.map .utf8

end Aggregate

/-- The key, or none for a NULL of any type. -/
def GroupValue.scalar : GroupValue → Option Aggregate.Scalar
  | int64 value => value.map .int64
  | uint64 value => value.map .uint64
  | decimal128 value _ scale => value.map (.decimal128 · scale)
  | date32 value => value.map .date32
  | date64 value => value.map .date64
  | utf8 value => value.map .utf8

namespace Aggregate

structure AggregateResult where
  expr : AggregateExpr
  value : AggregateValue
deriving DecidableEq

structure GroupAggregateResult where
  keys : List GroupValue
  values : List AggregateResult
deriving DecidableEq

structure AggregateMetrics where
  values : List AggregateResult := []
  groups : List GroupAggregateResult := []
  outputBatches : Option (List RecordBatch) := none

end Dodam.Execution.Aggregate
