import Dodam.Execution.Aggregate.Generic
import Dodam.Execution.Aggregate.Materialise
import Dodam.Foundation.GroupTable
import Dodam.Foundation.Fold

/-! # COUNT and SUM grouped by a simple CASE

The groups of all branches and of ELSE are made when the first batch with rows
arrives, and then each row is added to the group of its branch.
-/
namespace Dodam.Execution.Aggregate
open Foundation

inductive GroupKeyLiteral
  | null
  | boolean (value : Bool)
  | int64 (value : ℤ)
  | float64 (bits : F64)
  | utf8 (value : String)
deriving DecidableEq

def GroupKeyLiteral.debug : GroupKeyLiteral → String
  | null => "Null"
  | boolean value => "Boolean(" ++ toString value ++ ")"
  | int64 value => "Int64(" ++ toString value ++ ")"
  | float64 bits => "Float64(" ++ toString bits.toNat ++ ")"
  | utf8 value => "Utf8(" ++ value.quote ++ ")"

def groupValueFromLiteral : GroupKeyLiteral → Option GroupValue
  | .null => some (.utf8 none)
  | .boolean _ => none
  | .int64 value => some (.int64 (some value))
  | .float64 _ => none
  | .utf8 value => some (.utf8 (some value))

/-- `GroupKeyExpr::SimpleCaseLiteral`. -/
structure SimpleCaseLiteral where
  column : String
  branches : List (GroupKeyLiteral × GroupKeyLiteral)
  elseValue : GroupKeyLiteral

structure SimpleCaseKeyCountSumPlan where
  column : String
  branches : List (GroupKeyLiteral × GroupValue)
  elseValue : GroupValue
  sumColumn : String
deriving DecidableEq

def SimpleCaseKeyCountSumPlan.new (groupKey : SimpleCaseLiteral) (aggregates : List AggregateExpr) :
    Option SimpleCaseKeyCountSumPlan :=
  match aggregates with
  | [.countStar,.sum sumColumn] =>
    (groupKey.branches.mapM fun branch => (groupValueFromLiteral branch.2).map fun result => (branch.1,result)).bind
      fun branches => (groupValueFromLiteral groupKey.elseValue).map fun elseValue =>
        ⟨groupKey.column,branches,elseValue,sumColumn⟩
  | _ => none

structure CountSumGroup where
  key : GroupValue
  count : ℕ
  sumI64 : ℤ
  sumF64 : F64
  sumDecimal128 : ℤ
  sumOutput : CountSumOutputKind
  sumCount : ℕ
deriving DecidableEq

namespace CountSumGroup

def new (sumOutput : CountSumOutputKind) (key : GroupValue) : CountSumGroup := ⟨key,0,0,0,0,sumOutput,0⟩

def update (ops : FloatOps) (group : CountSumGroup) : Option Scalar → CountSumGroup
  | some (.int32 value) => { group with
      count := group.count + 1
      sumI64 := wrapSigned 64 (group.sumI64 + value)
      sumCount := group.sumCount + 1 }
  | some (.int64 value) => { group with
      count := group.count + 1
      sumI64 := wrapSigned 64 (group.sumI64 + value)
      sumCount := group.sumCount + 1 }
  | some (.float64 value) => { group with
      count := group.count + 1
      sumF64 := ops.add group.sumF64 value
      sumCount := group.sumCount + 1 }
  | some (.decimal128 value _) => { group with
      count := group.count + 1
      sumDecimal128 := wrapSigned 128 (group.sumDecimal128 + value)
      sumCount := group.sumCount + 1 }
  | _ => { group with count := group.count + 1 }

def sumValue (group : CountSumGroup) : AggregateValue :=
  match group.sumOutput with
  | .int64 => .int64 (if group.sumCount = 0 then none else some group.sumI64)
  | .float64 => .float64 (if group.sumCount = 0 then none else some group.sumF64)
  | .decimal128 scale => .decimal128 (if group.sumCount = 0 then none else some group.sumDecimal128) 38 scale

def finish (countExpr sumExpr : AggregateExpr) (group : CountSumGroup) : GroupAggregateResult :=
  ⟨[group.key],[⟨countExpr,.count group.count⟩,⟨sumExpr,group.sumValue⟩]⟩

end CountSumGroup

/-- `CountSumValueInput::new`, for the kind of the sums it feeds. -/
def countSumOutputKind (column : ArrayRef) (expr : AggregateExpr) : Result CountSumOutputKind :=
  match column with
  | .int32 _ => .ok .int64
  | .int64 _ => .ok .int64
  | .float64 _ => .ok .float64
  | .decimal128 _ _ scale => .ok (.decimal128 scale)
  | column =>
    .error (.err (.unsupportedAggregateType "sum" (expr.referencedColumn.getD "*") column.dataType.display))

section Branches

def columnValueMatchesLiteral (column : ArrayRef) (row : ℕ) (literal : GroupKeyLiteral) : Result Bool :=
  let cannotCompare : Result Bool := unsupportedSql
    ("simple CASE aggregate cannot compare " ++ column.dataType.display ++ " to " ++ literal.debug)
  match literal with
  | .null => .ok (column.cells[row]?.join).isNone
  | literal =>
    match column.cells[row]?.join with
    | none => .ok false
    | some value =>
      match value, literal with
      | .int32 value, .int64 expected => .ok (value = expected)
      | .int64 value, .int64 expected => .ok (value = expected)
      | .uint64 value, .int64 expected => if 0 ≤ expected then .ok (value = expected.toNat) else cannotCompare
      | .utf8 value, .utf8 expected => .ok (value = expected)
      | .other, .boolean _ =>
        if column.dataType = .other "Boolean" then
          unsupportedSql "simple CASE aggregate boolean keys are not supported yet"
        else cannotCompare
      | _, _ => cannotCompare

/-- The first branch that matches, by what the branches carry. -/
def simpleCaseGroupIdForRow {α : Type} (column : ArrayRef) (row : ℕ) (branches : List (GroupKeyLiteral × α))
    (elseGroup : α) : Result α :=
  match branches with
  | [] => .ok elseGroup
  | (condition,group) :: branches =>
    (columnValueMatchesLiteral column row condition).bind fun matched =>
      if matched then .ok group else simpleCaseGroupIdForRow column row branches elseGroup

/-- The conditions as Int32 values; none when one of them is no integer. -/
def simpleCaseI32Conditions : List GroupKeyLiteral → Result (Option (List ℤ))
  | [] => .ok (some [])
  | .int64 value :: rest =>
    if InSigned 32 value then (simpleCaseI32Conditions rest).map (·.map (value :: ·))
    else unsupportedSql "simple CASE Int32 branch literal out of range"
  | _ :: _ => .ok none

def simpleCaseI32GroupId (conditions : List (ℤ × ℕ)) (elseGroupId : ℕ) (value : Option ℤ) : ℕ :=
  (value.bind fun key => (conditions.find? fun condition => condition.1 = key).map Prod.snd).getD elseGroupId

end Branches

section Collect
variable (ops : FloatOps) (plan : SimpleCaseKeyCountSumPlan)

def groupValueIndex : KeyIndex (Map GroupValue ℕ) GroupValue where
  get index key := index.lookup key
  insert index key id := index.insert key id

abbrev CaseTable := Table (Map GroupValue ℕ) CountSumGroup

def simpleCaseGroupId (kind : CountSumOutputKind) (table : CaseTable) (key : GroupValue) : ℕ × CaseTable :=
  table.groupId groupValueIndex (.new kind) key

/-- The group ids of some results, made one after the other. -/
def resultGroupIds (kind : CountSumOutputKind) (table : CaseTable) : List GroupValue → List ℕ × CaseTable
  | [] => ([],table)
  | key :: keys =>
    let (id,table) := simpleCaseGroupId kind table key
    let (ids,table) := resultGroupIds kind table keys
    (id :: ids,table)

def simpleCaseGroupIds (kind : CountSumOutputKind) (table : CaseTable) : (List ℕ × ℕ) × CaseTable :=
  let (branchIds,table) := resultGroupIds kind table (plan.branches.map Prod.snd)
  let (elseId,table) := simpleCaseGroupId kind table plan.elseValue
  ((branchIds,elseId),table)

def updateSimpleCaseKeyCountSumGroups (keyColumn sumColumn : ArrayRef) (branchIds : List ℕ) (elseId : ℕ)
    (groups : List CountSumGroup) : Result (List CountSumGroup) :=
  let conditions := plan.branches.map Prod.fst
  let updateRows (groupId : ℕ → Result ℕ) : Result (List CountSumGroup) :=
    (List.range keyColumn.len).foldlM (fun groups row => (groupId row).map fun id =>
      groups.modify id (·.update ops sumColumn.cells[row]?.join)) groups
  match keyColumn with
  | .int32 values =>
    (simpleCaseI32Conditions conditions).bind fun
      | some conditions => updateRows fun row =>
          .ok (simpleCaseI32GroupId (conditions.zip branchIds) elseId values[row]?.join)
      | none => updateRows fun row => simpleCaseGroupIdForRow keyColumn row (conditions.zip branchIds) elseId
  | keyColumn => updateRows fun row => simpleCaseGroupIdForRow keyColumn row (conditions.zip branchIds) elseId

/-- The groups, and their ids once a batch with rows has come. -/
structure CaseState where
  table : CaseTable
  ids : Option (List ℕ × ℕ)

def simpleCaseBatch (state : CaseState) (batch : Result RecordBatch) : Result CaseState :=
  batch.bind fun batch =>
    if batch.numRows = 0 then .ok state
    else
      (batch.column plan.column).bind fun keyColumn =>
      (batch.column plan.sumColumn).bind fun sumColumn =>
      (countSumOutputKind sumColumn (.sum plan.sumColumn)).bind fun kind =>
        let (ids,table) := state.ids.elim (simpleCaseGroupIds plan kind state.table) fun ids => (ids,state.table)
        (updateSimpleCaseKeyCountSumGroups ops plan keyColumn sumColumn ids.1 ids.2 table.groups).map fun groups =>
          ⟨{ table with groups },some ids⟩

def collectSimpleCaseKeyCountSumGroups (stream : List (Result RecordBatch)) : Result AggregateMetrics :=
  (stream.foldlM (simpleCaseBatch ops plan) ⟨⟨∅,[]⟩,none⟩).map fun state =>
    { groups := (state.table.groups.map (CountSumGroup.finish .countStar (.sum plan.sumColumn))).insertionSort
        fun left right => compareGroupKeys left.keys right.keys ≠ .gt }

end Collect

end Dodam.Execution.Aggregate
