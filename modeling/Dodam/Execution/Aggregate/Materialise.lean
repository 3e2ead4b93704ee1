import Dodam.Execution.Aggregate.Value
import Dodam.Foundation.Machine

/-! # Batches of aggregate results

The results of a query become typed columns: one for each key and one for each aggregate.
-/
namespace Dodam.Execution.Aggregate
open Foundation

namespace F64

/-- `f64 as i64`: the whole part, saturated, and zero for what is not a number. -/
def asI64 (x : F64) : ℤ :=
  let exponent := x.magnitude / 2 ^ 52
  let fraction : ℕ := x.magnitude % 2 ^ 52 + (if exponent = 0 then 0 else 2 ^ 52)
  let whole : ℕ := if 1075 ≤ exponent then fraction * 2 ^ (exponent - 1075) else fraction / 2 ^ (1075 - exponent)
  if x.isNan then 0 else saturateSigned 64 (if x.msb then -(whole : ℤ) else whole)

end F64

def AggregateValue.dataType : AggregateValue → DataType
  | count _ => .uint64
  | int64 _ => .int64
  | float64 _ => .float64
  | date32 _ => .date32
  | date64 _ => .date64
  | timestampMillisecond _ timezone => .timestampMillisecond timezone
  | decimal128 _ precision scale => .decimal128 precision scale
  | utf8 _ => .utf8

def aggregateColumnType (values : List AggregateValue) : DataType :=
  (values.map AggregateValue.dataType).head?.getD .int64

def aggregateValuesToColumn (name : String) (values : List AggregateValue) : Field :=
  match aggregateColumnType values with
  | .uint64 => ⟨name,.uint64 (values.map fun | .count value => some value | _ => none)⟩
  | .float64 => ⟨name,.float64 (values.map fun | .float64 value => value | _ => none)⟩
  | .utf8 => ⟨name,.utf8 (values.map fun | .utf8 value => value | _ => none)⟩
  | .date32 => ⟨name,.date32 (values.map fun | .date32 value => value | _ => none)⟩
  | .date64 => ⟨name,.date64 (values.map fun | .date64 value => value | _ => none)⟩
  | .decimal128 precision scale =>
    ⟨name,.decimal128 (values.map fun | .decimal128 value _ _ => value | _ => none) precision scale⟩
  | .timestampMillisecond timezone =>
    ⟨name,.timestampMillisecond (values.map fun | .timestampMillisecond value _ => value | _ => none) timezone⟩
  | _ => ⟨name,.int64 (values.map fun | .int64 value => value | _ => none)⟩

def groupValueDataType : GroupValue → DataType
  | .int64 _ => .int64
  | .uint64 _ => .uint64
  | .decimal128 _ precision scale => .decimal128 precision scale
  | .date32 _ => .date32
  | .date64 _ => .date64
  | .utf8 _ => .utf8

def groupColumnType (values : List (Option GroupValue)) : DataType :=
  (values.findSome? (·.map groupValueDataType)).getD .int64

def groupValuesToColumn (name : String) (values : List (Option GroupValue)) : Field :=
  match groupColumnType values with
  | .utf8 => ⟨name,.utf8 (values.map fun | some (.utf8 value) => value | _ => none)⟩
  | .uint64 => ⟨name,.uint64 (values.map fun | some (.uint64 value) => value | _ => none)⟩
  | .decimal128 precision scale =>
    ⟨name,.decimal128 (values.map fun | some (.decimal128 value _ _) => value | _ => none) precision scale⟩
  | .date32 => ⟨name,.date32 (values.map fun | some (.date32 value) => value | _ => none)⟩
  | .date64 => ⟨name,.date64 (values.map fun | some (.date64 value) => value | _ => none)⟩
  | _ => ⟨name,.int64 (values.map fun | some (.int64 value) => value | _ => none)⟩

def groupValuesToColumnFromGroups (name : String) (groups : List GroupAggregateResult) (index : ℕ) : Field :=
  groupValuesToColumn name (groups.map fun group => group.keys[index]?)

def aggregateValuesToBatch (values : List AggregateResult) : Result RecordBatch :=
  RecordBatch.tryNew (values.map fun value => aggregateValuesToColumn value.expr.display [value.value])

inductive CountSumOutputKind
  | int64
  | float64
  | decimal128 (scale : ℤ)
deriving DecidableEq

structure CountSumLoop where
  counts : List ℕ := []
  sumsI64 : List (Option ℤ) := []
  sumsHaveNulls : Bool := false
  sumOutput : CountSumOutputKind := .int64

/-- The count and the sum of a group, when they are of the kinds handled here. -/
def countSumValues (group : GroupAggregateResult) : Option (ℕ × AggregateValue) :=
  match group.values with
  | ⟨_,.count n⟩ :: ⟨_,.int64 value⟩ :: _ => some (n,.int64 value)
  | ⟨_,.count n⟩ :: ⟨_,.float64 value⟩ :: _ => some (n,.float64 value)
  | ⟨_,.count n⟩ :: ⟨_,.decimal128 value precision scale⟩ :: _ => some (n,.decimal128 value precision scale)
  | _ => none

def countSumStep (s : CountSumLoop) (group : GroupAggregateResult) : Option CountSumLoop :=
  match countSumValues group with
  | some (n,.int64 value) => some { s with
      counts := s.counts ++ [n]
      sumsI64 := s.sumsI64 ++ [value]
      sumsHaveNulls := s.sumsHaveNulls || value.isNone }
  | some (n,.float64 value) => some {
      counts := s.counts ++ [n]
      sumsI64 := s.sumsI64 ++ [value.map F64.asI64]
      sumsHaveNulls := s.sumsHaveNulls || value.isNone
      sumOutput := .float64 }
  | some (n,.decimal128 value _ scale) => some {
      counts := s.counts ++ [n]
      sumsI64 := s.sumsI64 ++ [none]
      sumsHaveNulls := s.sumsHaveNulls || value.isNone
      sumOutput := .decimal128 scale }
  | _ => none

def isCountSum : List AggregateExpr → Bool
  | [.countStar,.sum _] => true
  | [.count _,.sum _] => true
  | _ => false

def secondValues (groups : List GroupAggregateResult) : List (Option AggregateValue) :=
  groups.map fun group => group.values[1]?.map AggregateResult.value

def countSumColumn (name : String) (groups : List GroupAggregateResult) (s : CountSumLoop) : Result Field :=
  match s.sumOutput with
  | .float64 => .ok ⟨name,.float64 ((secondValues groups).map fun | some (.float64 value) => value | _ => none)⟩
  | .decimal128 scale => .ok ⟨name,
      .decimal128 ((secondValues groups).map fun | some (.decimal128 value _ _) => value | _ => none) 38 scale⟩
  | .int64 =>
    if s.sumsHaveNulls then .ok ⟨name,.int64 s.sumsI64⟩
    else match s.sumsI64.mapM id with
      | some values => .ok ⟨name,.int64 (values.map some)⟩
      | none => .error .panicked

def countSumMetricsToBatch (metrics : AggregateMetrics) (groupBy : List String)
    (aggregates : List AggregateExpr) : Result (Option RecordBatch) :=
  match aggregates with
  | [count,sum] =>
    if isCountSum [count,sum] then
      match metrics.groups.foldlM countSumStep {} with
      | none => .ok none
      | some s =>
        (countSumColumn sum.display metrics.groups s).bind fun sums =>
          (RecordBatch.tryNew
            (groupBy.mapIdx (fun index column => groupValuesToColumnFromGroups column metrics.groups index) ++
              [⟨count.display,.uint64 (s.counts.map some)⟩,sums])).map some
    else .ok none
  | _ => .ok none

def aggregateMetricsToBatches (metrics : AggregateMetrics) (groupBy : List String)
    (aggregates : List AggregateExpr) : Result (List RecordBatch) :=
  match metrics.outputBatches with
  | some batches => .ok batches
  | none =>
    if groupBy = [] then (aggregateValuesToBatch metrics.values).map fun batch => [batch]
    else
      (countSumMetricsToBatch metrics groupBy aggregates).bind fun
        | some batch => .ok [batch]
        | none =>
          (RecordBatch.tryNew
            (groupBy.mapIdx (fun index column =>
                groupValuesToColumn column (metrics.groups.map fun group => group.keys[index]?)) ++
              aggregates.mapIdx fun index aggregate => aggregateValuesToColumn aggregate.display
                ((metrics.groups.filterMap fun group => group.values[index]?).map AggregateResult.value))).map
            fun batch => [batch]

end Dodam.Execution.Aggregate
