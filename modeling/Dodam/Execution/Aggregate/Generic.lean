import Dodam.Execution.Aggregate.Value
import Dodam.Foundation.KeyedTable
import Dodam.Foundation.Machine
import Mathlib.Data.List.Sort

/-! # The generic grouped aggregate

One accumulator for each aggregate of a group, updated row by row. The batches
are grouped by workers and merged in the order in which the workers finish. The
arithmetic of floats is a parameter.
-/
namespace Dodam.Execution.Aggregate
open Foundation

/-- The operations on floats behind SUM and AVG. -/
structure FloatOps where
  add : F64 → F64 → F64
  div : F64 → F64 → F64
  ofI64 : ℤ → F64
  ofU64 : ℕ → F64
  ofI128 : ℤ → F64
  decimalScaleFactor : ℤ → F64

inductive NumericOutput
  | int64
  | float64
  | decimal128 (scale : ℤ)
deriving DecidableEq

/-- `NumericState` with the sums of all three kinds. -/
structure NumericState where
  sumI64 : ℤ := 0
  sumF64 : F64 := 0
  sumDecimal128 : ℤ := 0
  count : ℕ := 0
  output : Option NumericOutput := none
deriving DecidableEq

def unsupportedAggregateType {α : Type} (expr : AggregateExpr) (dataType : String) : Result α :=
  .error (.err (.unsupportedAggregateType expr.functionName (expr.referencedColumn.getD "*") dataType))

namespace DataType

def display : DataType → String
  | int32 => "Int32"
  | int64 => "Int64"
  | uint64 => "UInt64"
  | float64 => "Float64"
  | date32 => "Date32"
  | date64 => "Date64"
  | timestampMillisecond _ => "Timestamp(Millisecond)"
  | decimal128 _ _ => "Decimal128"
  | utf8 => "Utf8"
  | other name => name

end DataType

namespace NumericState

/-- `output.get_or_insert(..)`. -/
def seen (state : NumericState) (output : NumericOutput) : NumericState :=
  { state with output := some (state.output.getD output) }

def addI64 (state : NumericState) (value : ℤ) : NumericState :=
  { state.seen .int64 with
    sumI64 := wrapSigned 64 (state.sumI64 + value)
    count := state.count + 1 }

def addF64 (ops : FloatOps) (state : NumericState) (value : F64) : NumericState :=
  { state.seen .float64 with
    sumF64 := ops.add state.sumF64 value
    count := state.count + 1 }

def addDecimal128 (state : NumericState) (value scale : ℤ) : NumericState :=
  { state.seen (.decimal128 scale) with
    sumDecimal128 := wrapSigned 128 (state.sumDecimal128 + value)
    count := state.count + 1 }

def updateRow (ops : FloatOps) (state : NumericState) (column : ArrayRef) (row : ℕ) (expr : AggregateExpr) :
    Result NumericState :=
  match column with
  | .int32 values => .ok ((values[row]?.join).elim (state.seen .int64) state.addI64)
  | .int64 values => .ok ((values[row]?.join).elim (state.seen .int64) state.addI64)
  | .float64 values => .ok ((values[row]?.join).elim (state.seen .float64) (state.addF64 ops))
  | .decimal128 values _ scale =>
    .ok ((values[row]?.join).elim (state.seen (.decimal128 scale)) (state.addDecimal128 · scale))
  | column => unsupportedAggregateType expr column.dataType.display

def sumValue (state : NumericState) : AggregateValue :=
  match state.output with
  | some .int64 => .int64 (if 0 < state.count then some state.sumI64 else none)
  | some .float64 => .float64 (if 0 < state.count then some state.sumF64 else none)
  | some (.decimal128 scale) =>
    .decimal128 (if 0 < state.count then some state.sumDecimal128 else none) 38 scale
  | none => .int64 none

def avgValue (ops : FloatOps) (state : NumericState) : AggregateValue :=
  if 0 < state.count then
    match state.output with
    | some .int64 => .float64 (some (ops.div (ops.ofI64 state.sumI64) (ops.ofU64 state.count)))
    | some .float64 => .float64 (some (ops.div state.sumF64 (ops.ofU64 state.count)))
    | some (.decimal128 scale) => .float64 (some (ops.div
        (ops.div (ops.ofI128 state.sumDecimal128) (ops.decimalScaleFactor scale)) (ops.ofU64 state.count)))
    | none => .float64 none
  else .float64 none

def merge (ops : FloatOps) (state other : NumericState) : NumericState :=
  match other.output with
  | some .int64 =>
    { state.seen .int64 with
      sumI64 := wrapSigned 64 (state.sumI64 + other.sumI64)
      count := state.count + other.count }
  | some .float64 =>
    { state.seen .float64 with
      sumF64 := ops.add state.sumF64 other.sumF64
      count := state.count + other.count }
  | some (.decimal128 scale) =>
    { state.seen (.decimal128 scale) with
      sumDecimal128 := wrapSigned 128 (state.sumDecimal128 + other.sumDecimal128)
      count := state.count + other.count }
  | none => { state with count := state.count + other.count }

end NumericState

/-- `MinMaxState`: the value kept so far. -/
abbrev MinMaxState := Option AggregateValue

namespace MinMaxState

/-- A candidate replaces the value kept when it compares this way with it. -/
abbrev Replace := Ordering → Bool

def replaceMin : Replace := fun ordering => ordering == .lt

def replaceMax : Replace := fun ordering => ordering == .gt

/-- The candidate unless the value kept is of its kind and not to be replaced. -/
def keep (state : MinMaxState) (replace : Replace) (ordering : AggregateValue → Option Ordering)
    (candidate : AggregateValue) : MinMaxState :=
  match state.bind ordering with
  | some ordering => if replace ordering then some candidate else state
  | none => some candidate

def updateInt64 (state : MinMaxState) (candidate : ℤ) (replace : Replace) : MinMaxState :=
  state.keep replace
    (fun | .int64 (some current) => some (compare candidate current) | _ => none) (.int64 (some candidate))

/-- A float that compares with nothing is ignored. -/
def updateF64 (state : MinMaxState) (candidate : F64) (replace : Replace) : MinMaxState :=
  match candidate.partialCmp candidate with
  | none => state
  | some _ =>
    match state with
    | some (.float64 (some current)) =>
      if ((candidate.partialCmp current).elim false replace) then some (.float64 (some candidate)) else state
    | _ => some (.float64 (some candidate))

def updateDate32 (state : MinMaxState) (candidate : ℤ) (replace : Replace) : MinMaxState :=
  state.keep replace
    (fun | .date32 (some current) => some (compare candidate current) | _ => none) (.date32 (some candidate))

def updateDate64 (state : MinMaxState) (candidate : ℤ) (replace : Replace) : MinMaxState :=
  state.keep replace
    (fun | .date64 (some current) => some (compare candidate current) | _ => none) (.date64 (some candidate))

def updateTimestampMillisecond (state : MinMaxState) (candidate : ℤ) (timezone : Option String)
    (replace : Replace) : MinMaxState :=
  state.keep replace
    (fun | .timestampMillisecond (some current) _ => some (compare candidate current) | _ => none)
    (.timestampMillisecond (some candidate) timezone)

def updateDecimal128 (state : MinMaxState) (candidate : ℤ) (precision : ℕ) (scale : ℤ) (replace : Replace) :
    MinMaxState :=
  state.keep replace
    (fun | .decimal128 (some current) _ _ => some (compare candidate current) | _ => none)
    (.decimal128 (some candidate) precision scale)

def updateUtf8 (state : MinMaxState) (candidate : String) (replace : Replace) : MinMaxState :=
  state.keep replace
    (fun | .utf8 (some current) => some (compare candidate current) | _ => none) (.utf8 (some candidate))

def updateRow (state : MinMaxState) (column : ArrayRef) (row : ℕ) (expr : AggregateExpr) (replace : Replace) :
    Result MinMaxState :=
  match column with
  | .int32 values => .ok ((values[row]?.join).elim state (state.updateInt64 · replace))
  | .int64 values => .ok ((values[row]?.join).elim state (state.updateInt64 · replace))
  | .float64 values => .ok ((values[row]?.join).elim state (state.updateF64 · replace))
  | .date32 values => .ok ((values[row]?.join).elim state (state.updateDate32 · replace))
  | .date64 values => .ok ((values[row]?.join).elim state (state.updateDate64 · replace))
  | .timestampMillisecond values timezone =>
    .ok ((values[row]?.join).elim state (state.updateTimestampMillisecond · timezone replace))
  | .decimal128 values precision scale =>
    .ok ((values[row]?.join).elim state (state.updateDecimal128 · precision scale replace))
  | .utf8 values => .ok ((values[row]?.join).elim state (state.updateUtf8 · replace))
  | .uint64 values =>
    if (values[row]?.join).isNone then .ok state else unsupportedAggregateType expr "UInt64"
  | .other name values =>
    if (values[row]?.join).isNone then .ok state else unsupportedAggregateType expr name

/-- Without a value the result is an integer NULL. -/
def value (state : MinMaxState) : AggregateValue := state.getD (.int64 none)

end MinMaxState

/-- `update_min_max_value`: values of two kinds are not compared. -/
def updateMinMaxValue (expr : AggregateExpr) (state : MinMaxState) (candidate : AggregateValue) : MinMaxState :=
  let replace : Option Ordering → Bool := fun ordering =>
    match expr, ordering with
    | .min _, some ordering => MinMaxState.replaceMin ordering
    | .max _, some ordering => MinMaxState.replaceMax ordering
    | _, _ => false
  match state with
  | none => some candidate
  | some current =>
    let ordering := match current, candidate with
      | .int64 (some current), .int64 (some candidate) => some (compare candidate current)
      | .float64 (some current), .float64 (some candidate) => candidate.partialCmp current
      | .date32 (some current), .date32 (some candidate) => some (compare candidate current)
      | .date64 (some current), .date64 (some candidate) => some (compare candidate current)
      | .timestampMillisecond (some current) _, .timestampMillisecond (some candidate) _ =>
        some (compare candidate current)
      | .decimal128 (some current) _ _, .decimal128 (some candidate) _ _ => some (compare candidate current)
      | .utf8 (some current), .utf8 (some candidate) => some (compare candidate current)
      | _, _ => none
    if replace ordering then some candidate else state

def MinMaxState.merge (state other : MinMaxState) (expr : AggregateExpr) : MinMaxState :=
  other.elim state (updateMinMaxValue expr state)

def groupValue (name : String) (column : ArrayRef) (row : ℕ) : Result GroupValue :=
  match column with
  | .int32 values => .ok (.int64 values[row]?.join)
  | .int64 values => .ok (.int64 values[row]?.join)
  | .uint64 values => .ok (.uint64 values[row]?.join)
  | .decimal128 values precision scale => .ok (.decimal128 values[row]?.join precision scale)
  | .date32 values => .ok (.date32 values[row]?.join)
  | .date64 values => .ok (.date64 values[row]?.join)
  | .utf8 values => .ok (.utf8 values[row]?.join)
  | column => .error (.err (.unsupportedGroupByType name column.dataType.display))

def groupKey (columns : List (String × ArrayRef)) (row : ℕ) : Result (List GroupValue) :=
  columns.mapM fun (name,column) => groupValue name column row

def distinctGroupValue (column : ArrayRef) (row : ℕ) : Result (Option GroupValue) :=
  match column.cells[row]?.join with
  | none => .ok none
  | some _ =>
    match groupValue "*" column row with
    | .ok value => .ok (some value)
    | .error _ => unsupportedAggregateType (.countDistinct "*") column.dataType.display

inductive AggregateAccumulator
  | countStar (count : ℕ)
  | count (expr : AggregateExpr) (count : ℕ)
  | countDistinct (expr : AggregateExpr) (values : List GroupValue)
  | sum (expr : AggregateExpr) (state : NumericState)
  | avg (expr : AggregateExpr) (state : NumericState)
  | min (expr : AggregateExpr) (state : MinMaxState)
  | max (expr : AggregateExpr) (state : MinMaxState)

namespace AggregateAccumulator

def new (expr : AggregateExpr) : AggregateAccumulator :=
  match expr with
  | .countStar => countStar 0
  | .count _ => count expr 0
  | .countDistinct _ => countDistinct expr []
  | .sum _ => sum expr {}
  | .avg _ => avg expr {}
  | .min _ => min expr none
  | .max _ => max expr none

def need (column : Option ArrayRef) (expr : AggregateExpr) : Result ArrayRef :=
  match column with
  | some column => .ok column
  | none => .error (.err (.invalidAggregate expr.display))

def updateRow (ops : FloatOps) (accumulator : AggregateAccumulator) (column : Option ArrayRef) (row : ℕ) :
    Result AggregateAccumulator :=
  match accumulator with
  | countStar n => .ok (countStar (n + 1))
  | count expr n => (need column expr).map fun column =>
      count expr (if (column.cells[row]?.join).isSome then n + 1 else n)
  | countDistinct expr values => (need column expr).bind fun column =>
      (distinctGroupValue column row).map fun value => countDistinct expr (value.elim values values.insert)
  | sum expr state => (need column expr).bind fun column => (state.updateRow ops column row expr).map (sum expr)
  | avg expr state => (need column expr).bind fun column => (state.updateRow ops column row expr).map (avg expr)
  | min expr state => (need column expr).bind fun column =>
      (state.updateRow column row expr MinMaxState.replaceMin).map (min expr)
  | max expr state => (need column expr).bind fun column =>
      (state.updateRow column row expr MinMaxState.replaceMax).map (max expr)

def finish (ops : FloatOps) : AggregateAccumulator → AggregateResult
  | countStar n => ⟨.countStar,.count n⟩
  | count expr n => ⟨expr,.count n⟩
  | countDistinct expr values => ⟨expr,.count values.length⟩
  | sum expr state => ⟨expr,state.sumValue⟩
  | avg expr state => ⟨expr,state.avgValue ops⟩
  | min expr state => ⟨expr,state.value⟩
  | max expr state => ⟨expr,state.value⟩

def merge (ops : FloatOps) : AggregateAccumulator → AggregateAccumulator → AggregateAccumulator
  | countStar n, countStar other => countStar (n + other)
  | count expr n, count _ other => count expr (n + other)
  | countDistinct expr values, countDistinct _ other => countDistinct expr (other.foldl (fun values value => values.insert value) values)
  | sum expr state, sum _ other => sum expr (state.merge ops other)
  | avg expr state, avg _ other => avg expr (state.merge ops other)
  | min expr state, min _ other => min expr (state.merge other expr)
  | max expr state, max _ other => max expr (state.merge other expr)
  | accumulator, _ => accumulator

end AggregateAccumulator

structure GroupState where
  keys : List GroupValue
  accumulators : List AggregateAccumulator

/-- The groups by the encoded rows of their keys. -/
abbrev GroupMap := Map (List GroupValue) GroupState

/-- One row: its group, made when it is new, with every accumulator updated. -/
def collectGroupedAggregatesRow (ops : FloatOps) (groupColumns : List (String × ArrayRef))
    (aggregates : List AggregateExpr) (aggregateColumns : List (Option ArrayRef)) (groups : GroupMap)
    (row : ℕ) : Result GroupMap :=
  (groupKey groupColumns row).bind fun key =>
    let group := (groups.lookup key).getD ⟨key,aggregates.map .new⟩
    ((group.accumulators.zip aggregateColumns).mapM fun (entry : AggregateAccumulator × Option ArrayRef) =>
      entry.1.updateRow ops entry.2 row).map fun accumulators =>
        groups.insert key { group with accumulators := accumulators }

def collectGroupedAggregatesBatch (ops : FloatOps) (batch : RecordBatch) (groupBy : List String)
    (aggregates : List AggregateExpr) : Result GroupMap :=
  (groupBy.mapM fun column => (batch.column column).map fun array => (column,array)).bind fun groupColumns =>
    (aggregates.mapM fun (aggregate : AggregateExpr) =>
      match aggregate.referencedColumn with
      | some column => (batch.column column).map some
      | none => .ok none).bind fun aggregateColumns =>
        (List.range batch.numRows).foldlM
          (collectGroupedAggregatesRow ops groupColumns aggregates aggregateColumns) ∅

def mergeGroupMaps (ops : FloatOps) (groups part : GroupMap) : GroupMap :=
  part.toPairs.foldl (fun groups (key,other) =>
    match groups.lookup key with
    | none => groups.insert key other
    | some group => groups.insert key { group with
        accumulators := List.zipWith (·.merge ops ·) group.accumulators other.accumulators }) groups

def compareOption {α : Type} [Ord α] : Option α → Option α → Ordering
  | none, none => .eq
  | none, some _ => .lt
  | some _, none => .gt
  | some left, some right => compare left right

/-- The place of a kind of key among the kinds. -/
def groupValueRank : GroupValue → ℕ
  | .int64 _ => 0
  | .uint64 _ => 1
  | .decimal128 _ _ _ => 2
  | .date32 _ => 3
  | .date64 _ => 4
  | .utf8 _ => 5

def compareGroupValue : GroupValue → GroupValue → Ordering
  | .int64 left, .int64 right => compareOption left right
  | .uint64 left, .uint64 right => compareOption left right
  | .decimal128 left leftPrecision leftScale, .decimal128 right rightPrecision rightScale =>
    (compare leftScale rightScale).then ((compare leftPrecision rightPrecision).then (compareOption left right))
  | .date32 left, .date32 right => compareOption left right
  | .date64 left, .date64 right => compareOption left right
  | .utf8 left, .utf8 right => compareOption left right
  | left, right => compare (groupValueRank left) (groupValueRank right)

def compareGroupKeys (left right : List GroupValue) : Ordering :=
  ((List.zipWith compareGroupValue left right).find? (· ≠ .eq)).getD (compare left.length right.length)

def finishGroupMap (ops : FloatOps) (groups : GroupMap) : List GroupAggregateResult :=
  (groups.toPairs.map fun (_,group) => ⟨group.keys,group.accumulators.map (·.finish ops)⟩).insertionSort
    fun left right => compareGroupKeys left.keys right.keys ≠ .gt

/-- The batches stand in the order in which their workers finish. -/
def collectGroupedAggregatesGeneric (ops : FloatOps) (batches : List RecordBatch) (groupBy : List String)
    (aggregates : List AggregateExpr) : Result AggregateMetrics :=
  ((batches.filter (·.numRows ≠ 0)).foldlM (fun groups batch =>
    (collectGroupedAggregatesBatch ops batch groupBy aggregates).map (mergeGroupMaps ops groups)) ∅).map
      fun groups => { groups := finishGroupMap ops groups }

section Path

def isCountStarSum : List AggregateExpr → Bool
  | [.countStar,.sum _] => true
  | _ => false

def isCountStarSumMinMax : List AggregateExpr → Bool
  | [.countStar,.sum _,.min _,.max _] => true
  | _ => false

def isSum : List AggregateExpr → Bool
  | [.sum _] => true
  | _ => false

def isCountDistinct : AggregateExpr → Bool
  | .countDistinct _ => true
  | _ => false

/-- The fast paths that `collect_grouped_aggregates` tries before the generic one. -/
inductive GroupedPath
  | singleKeyCountSumMinMax
  | twoKeyCountSumMinMax
  | singleKeyCountSum
  | singleKey
  | twoUtf8Key
  | twoKeyCountSum
  | threeUtf8CountSum
  | threeKeyCountSum
  | twoKeySum
  | generic
deriving DecidableEq

def groupedPath (threeUtf8KeyCountSumEnabled : Bool) (groupBy : List String) (aggregates : List AggregateExpr) :
    GroupedPath :=
  let supported := !aggregates.isEmpty && aggregates.all (!isCountDistinct ·)
  if groupBy.length = 1 ∧ isCountStarSumMinMax aggregates then .singleKeyCountSumMinMax
  else if groupBy.length = 2 ∧ isCountStarSumMinMax aggregates then .twoKeyCountSumMinMax
  else if groupBy.length = 1 ∧ isCountStarSum aggregates then .singleKeyCountSum
  else if groupBy.length = 1 ∧ supported then .singleKey
  else if groupBy.length = 2 ∧ supported then .twoUtf8Key
  else if groupBy.length = 2 ∧ isCountStarSum aggregates then .twoKeyCountSum
  else if threeUtf8KeyCountSumEnabled ∧ groupBy.length = 3 ∧ isCountStarSum aggregates then .threeUtf8CountSum
  else if groupBy.length = 3 ∧ isCountStarSum aggregates then .threeKeyCountSum
  else if groupBy.length = 2 ∧ isSum aggregates then .twoKeySum
  else .generic

end Path
end Dodam.Execution.Aggregate
