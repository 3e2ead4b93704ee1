import Dodam.Execution.Aggregate.SimpleCase
import Mathlib.Data.Int.ModEq

/-! # Groups of a simple CASE

The key of a row is the result of its first branch that matches.
-/
namespace Dodam.Execution.Aggregate
open Foundation Aggregate.CountSumGroup

section Specification

def caseRows (plan : SimpleCaseKeyCountSumPlan) (batch : RecordBatch) : Result (List (GroupValue × Option Scalar)) :=
  if batch.numRows = 0 then .ok []
  else
    (batch.column plan.column).bind fun keyColumn => (batch.column plan.sumColumn).bind fun sumColumn =>
      (List.range keyColumn.len).mapM fun row =>
        (simpleCaseGroupIdForRow keyColumn row plan.branches plan.elseValue).map fun key =>
          (key,sumColumn.cells[row]?.join)

/-- The values that a sum of the kind adds up. -/
def CountSumOutputKind.Sums : CountSumOutputKind → Scalar → Prop
  | .int64, .int32 _ => True
  | .int64, .int64 _ => True
  | .float64, .float64 _ => True
  | .decimal128 scale, .decimal128 _ scale' => scale = scale'
  | _, _ => False

def intPart : Scalar → ℤ
  | .int32 value => value
  | .int64 value => value
  | _ => 0

def floatPart : Scalar → F64
  | .float64 value => value
  | _ => 0

def decimalPart : Scalar → ℤ
  | .decimal128 value _ => value
  | _ => 0

/-- The sum of some values in the arithmetic of the kind: NULL without a value. -/
def caseSum (ops : FloatOps) (kind : CountSumOutputKind) (values : List Scalar) : AggregateValue :=
  match kind with
  | .int64 => .int64 (if values.length = 0 then none else some (wrapSigned 64 (values.map intPart).sum))
  | .float64 => .float64 (if values.length = 0 then none else some (values.foldl (fun sum v => ops.add sum (floatPart v)) 0))
  | .decimal128 scale =>
    .decimal128 (if values.length = 0 then none else some (wrapSigned 128 (values.map decimalPart).sum)) 38 scale

/-- One group for each key of the rows, with the number of its rows and their sum in some order. -/
structure CaseGroupsExact (ops : FloatOps) (kind : CountSumOutputKind) (plan : SimpleCaseKeyCountSumPlan)
    (rows : Multiset (GroupValue × Option Scalar)) (groups : List GroupAggregateResult) : Prop where
  nodup : (groups.map GroupAggregateResult.keys).Nodup
  exists_iff : ∀ keys, keys ∈ groups.map GroupAggregateResult.keys ↔ ∃ row ∈ rows, [row.1] = keys
  exact : ∀ group ∈ groups, ∃ key, ∃ cells : List (Option Scalar), group.keys = [key] ∧
    (cells : Multiset (Option Scalar)) = valuesAt rows key ∧
    group.values = [⟨.countStar,.count cells.length⟩,⟨.sum plan.sumColumn,caseSum ops kind (cells.filterMap id)⟩]

def caseStreamRows (plan : SimpleCaseKeyCountSumPlan) (stream : List (Result RecordBatch)) :
    Result (List (GroupValue × Option Scalar)) :=
  (stream.mapM fun batch : Result RecordBatch => batch.bind (caseRows plan)).map List.flatten

def SimpleCaseKeyCountSumPlan.results (plan : SimpleCaseKeyCountSumPlan) : List GroupValue :=
  plan.branches.map Prod.snd ++ [plan.elseValue]

/-- Every result is that of some row, unless there is no row at all. -/
def NoIdleBranch (plan : SimpleCaseKeyCountSumPlan) (rows : List (GroupValue × Option Scalar)) : Prop :=
  rows ≠ [] → ∀ key ∈ plan.results, ∃ row ∈ rows, row.1 = key

def OneSumKind (plan : SimpleCaseKeyCountSumPlan) (kind : CountSumOutputKind) (stream : List (Result RecordBatch)) :
    Prop :=
  ∀ batch, .ok batch ∈ stream → batch.numRows ≠ 0 → ∀ column, batch.column plan.sumColumn = .ok column →
    ∀ kind', countSumOutputKind column (.sum plan.sumColumn) = .ok kind' → kind' = kind

end Specification

section Group
variable {ops : FloatOps} {kind : CountSumOutputKind}

@[simp] theorem CountSumGroup.key_update (group : CountSumGroup) (cell : Option Scalar) :
    (group.update ops cell).key = group.key := by
  unfold update
  split <;> rfl

@[simp] theorem CountSumGroup.sumOutput_update (group : CountSumGroup) (cell : Option Scalar) :
    (group.update ops cell).sumOutput = group.sumOutput := by
  unfold update
  split <;> rfl

def groupOfCells (ops : FloatOps) (kind : CountSumOutputKind) (key : GroupValue) (cells : List (Option Scalar)) :
    CountSumGroup :=
  cells.foldl (fun group cell => group.update ops cell) (.new kind key)

theorem groupOfCells_concat (key : GroupValue) (cells : List (Option Scalar)) (cell : Option Scalar) :
    groupOfCells ops kind key (cells ++ [cell]) = (groupOfCells ops kind key cells).update ops cell := by
  rw [groupOfCells,List.foldl_append]
  rfl

/-- The group is what its rows make of a new group, in some order. -/
def CaseGroupHolds (ops : FloatOps) (kind : CountSumOutputKind) (cells : Multiset (Option Scalar))
    (group : CountSumGroup) : Prop :=
  ∃ l : List (Option Scalar), (l : Multiset (Option Scalar)) = cells ∧ group = groupOfCells ops kind group.key l

theorem caseGroupHolds_new (key : GroupValue) : CaseGroupHolds ops kind 0 (.new kind key) := ⟨[],rfl,rfl⟩

theorem CaseGroupHolds.update {cells : Multiset (Option Scalar)} {group : CountSumGroup}
    (h : CaseGroupHolds ops kind cells group) (cell : Option Scalar) :
    CaseGroupHolds ops kind (cells + {cell}) (group.update ops cell) := by
  obtain ⟨l,rfl,hgroup⟩ := h
  refine ⟨l ++ [cell],rfl,?_⟩
  rw [groupOfCells_concat,key_update,← hgroup]

theorem wrapSigned_add_left (w : ℕ) (a b : ℤ) : wrapSigned w (wrapSigned w a + b) = wrapSigned w (a + b) :=
  Int.bmod_add_bmod

/-- What a group of rows with values of one kind has counted and summed. -/
structure HasSums (ops : FloatOps) (kind : CountSumOutputKind) (cells : List (Option Scalar))
    (group : CountSumGroup) : Prop where
  count : group.count = cells.length
  sumCount : group.sumCount = (cells.filterMap id).length
  sumOutput : group.sumOutput = kind
  int64 : kind = .int64 → group.sumI64 = wrapSigned 64 ((cells.filterMap id).map intPart).sum
  float64 : kind = .float64 → group.sumF64 = (cells.filterMap id).foldl (fun sum v => ops.add sum (floatPart v)) 0
  decimal128 : ∀ scale, kind = .decimal128 scale →
    group.sumDecimal128 = wrapSigned 128 ((cells.filterMap id).map decimalPart).sum

variable {cells : List (Option Scalar)}

theorem groupOfCells_spec (key : GroupValue)
    (hcells : ∀ cell ∈ cells, ∀ value ∈ cell, kind.Sums value) :
    HasSums ops kind cells (groupOfCells ops kind key cells) := by
  induction cells using List.reverseRecOn with
  | nil => exact ⟨rfl,rfl,rfl,fun _ => rfl,fun _ => rfl,fun _ _ => rfl⟩
  | append_singleton cells cell ih =>
    have h := ih fun c hc => hcells c (List.mem_append_left _ hc)
    have hcell := hcells cell (List.mem_append_right _ (List.mem_singleton.mpr rfl))
    rw [groupOfCells_concat]
    cases cell with
    | none =>
      have hvalues : (cells ++ [none]).filterMap id = cells.filterMap id := by
        rw [List.filterMap_append]
        exact List.append_nil _
      refine ⟨?_,?_,h.sumOutput,?_,?_,?_⟩
      · rw [List.length_append,← h.count]
        rfl
      all_goals rw [hvalues]
      · exact h.sumCount
      · exact h.int64
      · exact h.float64
      · exact h.decimal128
    | some value =>
      have hvalues : (cells ++ [some value]).filterMap id = cells.filterMap id ++ [value] := by
        rw [List.filterMap_append]
        rfl
      have hvalue := hcell value rfl
      refine ⟨?_,?_,?_,?_,?_,?_⟩
      · rw [List.length_append,← h.count]
        unfold update
        split <;> rfl
      · rw [hvalues,List.length_append,← h.sumCount]
        cases kind <;> cases value <;> first | rfl | exact hvalue.elim
      · rw [sumOutput_update]
        exact h.sumOutput
      · rintro rfl
        have hsum := h.int64 rfl
        rw [hvalues,List.map_append,List.sum_append,List.map_singleton,List.sum_singleton,← wrapSigned_add_left,← hsum]
        cases value <;> first | rfl | exact hvalue.elim
      · rintro rfl
        have hsum := h.float64 rfl
        rw [hvalues,List.foldl_append,← hsum]
        cases value <;> first | rfl | exact hvalue.elim
      · rintro scale rfl
        have hsum := h.decimal128 scale rfl
        rw [hvalues,List.map_append,List.sum_append,List.map_singleton,List.sum_singleton,← wrapSigned_add_left,← hsum]
        cases value <;> first | rfl | exact hvalue.elim

theorem HasSums.sumValue {group : CountSumGroup}
    (h : HasSums ops kind cells group) : group.sumValue = caseSum ops kind (cells.filterMap id) := by
  rw [CountSumGroup.sumValue,h.sumCount,h.sumOutput]
  cases kind with
  | int64 => rw [caseSum,h.int64 rfl]
  | float64 => rw [caseSum,h.float64 rfl]
  | decimal128 scale => rw [caseSum,h.decimal128 scale rfl]

end Group

section Ids
variable {ops : FloatOps} {kind : CountSumOutputKind} {plan : SimpleCaseKeyCountSumPlan}
  {registered : GroupValue → Prop} {rows : Multiset (GroupValue × Option Scalar)} {table : CaseTable}

def CaseTable.Holds (ops : FloatOps) (kind : CountSumOutputKind) (registered : GroupValue → Prop)
    (rows : Multiset (GroupValue × Option Scalar)) (table : CaseTable) : Prop :=
  Table.Holds groupValueIndex (fun _ => True) key (CaseGroupHolds ops kind) registered rows table

theorem groupValueIndex_lawful : groupValueIndex.Lawful fun _ => True where
  insert_spec {index key} id _ _ := by
    refine ⟨trivial,fun k => ?_⟩
    change (index.insert key id).lookup k = _
    split
    · next h => rw [h,AList.lookup_insert]
    · next h => exact AList.lookup_insert_ne h

def IdsOf (table : CaseTable) (keys : List GroupValue) (ids : List ℕ) : Prop :=
  List.Forall₂ (fun key id => table.keyAt CountSumGroup.key id = some key) keys ids

theorem CaseTable.Holds.simpleCaseGroupId (h : table.Holds ops kind registered rows) (key : GroupValue) :
    (simpleCaseGroupId kind table key).2.Holds ops kind (fun k => registered k ∨ k = key) rows ∧
      (simpleCaseGroupId kind table key).2.keyAt CountSumGroup.key (simpleCaseGroupId kind table key).1 = some key ∧
      Table.Grows CountSumGroup.key table (simpleCaseGroupId kind table key).2 :=
  Table.Holds.groupId h groupValueIndex_lawful (fun _ => rfl) caseGroupHolds_new key

theorem CaseTable.Holds.resultGroupIds (h : table.Holds ops kind registered rows) (keys : List GroupValue) :
    (resultGroupIds kind table keys).2.Holds ops kind (fun k => registered k ∨ k ∈ keys) rows ∧
      IdsOf (resultGroupIds kind table keys).2 keys (resultGroupIds kind table keys).1 ∧
      Table.Grows CountSumGroup.key table (resultGroupIds kind table keys).2 := by
  induction keys generalizing registered table with
  | nil => exact ⟨Table.Holds.congr h fun k => (or_iff_left List.not_mem_nil).symm,.nil,fun _ _ h => h⟩
  | cons key keys ih =>
    obtain ⟨hid,hat,hgrows⟩ := h.simpleCaseGroupId key
    obtain ⟨hids,hall,hmore⟩ := ih hid
    refine ⟨Table.Holds.congr hids fun k => ?_,.cons (hmore _ _ hat) hall,fun id k hk => hmore _ _ (hgrows _ _ hk)⟩
    rw [List.mem_cons,or_assoc]

/-- The state holds the rows; every result has a group as soon as there is a row. -/
structure CaseState.Holds (ops : FloatOps) (kind : CountSumOutputKind) (plan : SimpleCaseKeyCountSumPlan)
    (rows : Multiset (GroupValue × Option Scalar)) (table : CaseTable) (branchIds : List ℕ) (elseId : ℕ) : Prop where
  held : table.Holds ops kind (· ∈ plan.results) rows
  branches : IdsOf table (plan.branches.map Prod.snd) branchIds
  otherwise : table.keyAt key elseId = some plan.elseValue

theorem simpleCaseGroupIds_holds (kind : CountSumOutputKind) :
    CaseState.Holds ops kind plan 0 (simpleCaseGroupIds plan kind ⟨∅,[]⟩).2
      (simpleCaseGroupIds plan kind ⟨∅,[]⟩).1.1 (simpleCaseGroupIds plan kind ⟨∅,[]⟩).1.2 := by
  have hempty : CaseTable.Holds ops kind (fun _ => False) 0 ⟨∅,[]⟩ :=
    Table.holds_empty trivial fun _ => rfl
  obtain ⟨hids,hall,-⟩ := hempty.resultGroupIds (plan.branches.map Prod.snd)
  obtain ⟨helse,hat,hgrows⟩ := hids.simpleCaseGroupId plan.elseValue
  refine ⟨Table.Holds.congr helse fun k => ?_,hall.imp fun key id h => hgrows _ _ h,hat⟩
  rw [SimpleCaseKeyCountSumPlan.results,List.mem_append,List.mem_singleton,false_or]

end Ids

section Search
variable {α β : Type} {R : α → β → Prop} {keys : List (GroupKeyLiteral × α)}

theorem simpleCaseGroupIdForRow_of_ids {column : ArrayRef} {row : ℕ}
    {ids : List (GroupKeyLiteral × β)} (h : List.Forall₂ (fun key id => key.1 = id.1 ∧ R key.2 id.2) keys ids)
    {elseKey : α} {elseId : β} (helse : R elseKey elseId) {id : β}
    (hid : simpleCaseGroupIdForRow column row ids elseId = .ok id) :
    ∃ key, simpleCaseGroupIdForRow column row keys elseKey = .ok key ∧ R key id := by
  induction h with
  | nil =>
    cases hid
    exact ⟨elseKey,rfl,helse⟩
  | @cons key entry keys ids hhead _ ih =>
    obtain ⟨condition,result⟩ := key
    obtain ⟨condition',group⟩ := entry
    obtain ⟨rfl,hresult⟩ := hhead
    obtain ⟨matched,hmatched,hid⟩ := bind_eq_ok_iff.mp hid
    rw [simpleCaseGroupIdForRow,hmatched]
    cases matched with
    | true =>
      cases hid
      exact ⟨result,rfl,hresult⟩
    | false => exact ih hid

theorem simpleCaseI32Conditions_eq {literals : List GroupKeyLiteral} {conditions : List ℤ}
    (h : simpleCaseI32Conditions literals = .ok (some conditions)) : literals = conditions.map .int64 := by
  induction literals generalizing conditions with
  | nil =>
    cases h
    rfl
  | cons literal literals ih =>
    cases literal with
    | int64 value =>
      rw [simpleCaseI32Conditions] at h
      split_ifs at h
      · obtain ⟨rest,hrest,h⟩ := map_eq_ok_iff.mp h
        obtain ⟨tail,rfl,rfl⟩ := Option.map_eq_some_iff.mp h
        rw [ih hrest]
        rfl
      · cases h
    | null => cases h
    | boolean value => cases h
    | float64 bits => cases h
    | utf8 value => cases h

theorem forall₂_zip_ids {ids : List β} (h : List.Forall₂ R (keys.map Prod.snd) ids) :
    List.Forall₂ (fun (key : GroupKeyLiteral × α) (entry : GroupKeyLiteral × β) => key.1 = entry.1 ∧ R key.2 entry.2)
      keys ((keys.map Prod.fst).zip ids) := by
  induction keys generalizing ids with
  | nil => exact .nil
  | cons key keys ih =>
    cases h with
    | cons hhead htail => exact .cons ⟨rfl,hhead⟩ (ih htail)

theorem columnValueMatchesLiteral_int32 (values : List (Option ℤ)) (row : ℕ) (expected : ℤ) :
    columnValueMatchesLiteral (.int32 values) row (.int64 expected) = .ok (values[row]?.join = some expected) := by
  have hcell : (ArrayRef.int32 values).cells[row]?.join = values[row]?.join.map .int32 := by
    rw [ArrayRef.cells,List.getElem?_map]
    cases values[row]? with
    | none => rfl
    | some cell => rfl
  unfold columnValueMatchesLiteral
  rw [hcell]
  cases values[row]?.join with
  | none => rfl
  | some value => simp

theorem simpleCaseI32GroupId_cons (expected : ℤ) (id : ℕ) (conditions : List (ℤ × ℕ)) (elseId : ℕ)
    (value : Option ℤ) : simpleCaseI32GroupId ((expected,id) :: conditions) elseId value =
      if value = some expected then id else simpleCaseI32GroupId conditions elseId value := by
  cases value with
  | none => rfl
  | some value =>
    rw [simpleCaseI32GroupId,Option.bind_some]
    by_cases hvalue : expected = value
    · rw [List.find?_cons_of_pos (by simpa using hvalue),if_pos (congrArg some hvalue.symm)]
      rfl
    · rw [List.find?_cons_of_neg (by simpa using hvalue),if_neg fun h => hvalue (Option.some.inj h).symm]
      rfl

theorem simpleCaseI32GroupId_eq (values : List (Option ℤ)) (row : ℕ) (conditions : List (ℤ × ℕ)) (elseId : ℕ) :
    simpleCaseGroupIdForRow (.int32 values) row (conditions.map fun condition => (.int64 condition.1,condition.2)) elseId =
      .ok (simpleCaseI32GroupId conditions elseId values[row]?.join) := by
  induction conditions with
  | nil =>
    rw [simpleCaseI32GroupId]
    cases values[row]?.join <;> rfl
  | cons condition conditions ih =>
    obtain ⟨expected,id⟩ := condition
    rw [List.map_cons,simpleCaseGroupIdForRow,ih,columnValueMatchesLiteral_int32,simpleCaseI32GroupId_cons]
    by_cases hvalue : values[row]?.join = some expected
    · rw [if_pos hvalue,decide_eq_true hvalue]
      rfl
    · rw [if_neg hvalue,decide_eq_false hvalue]
      rfl

end Search

section Run
variable {ops : FloatOps} {kind : CountSumOutputKind} {plan : SimpleCaseKeyCountSumPlan}
  {rows : Multiset (GroupValue × Option Scalar)} {table : CaseTable} {branchIds : List ℕ} {elseId : ℕ}

variable {keyColumn sumColumn column : ArrayRef} {state state' : CaseState}
variable {stream : List (Result RecordBatch)}

theorem updateSimpleCaseKeyCountSumGroups_eq {groups groups' : List CountSumGroup}
    (h : updateSimpleCaseKeyCountSumGroups ops plan keyColumn sumColumn branchIds elseId groups = .ok groups') :
    (List.range keyColumn.len).foldlM (fun groups row =>
      (simpleCaseGroupIdForRow keyColumn row ((plan.branches.map Prod.fst).zip branchIds) elseId).map fun id =>
        groups.modify id (·.update ops sumColumn.cells[row]?.join)) groups = .ok groups' := by
  cases keyColumn with
  | int32 values =>
    obtain ⟨conditions,hconditions,h⟩ := bind_eq_ok_iff.mp h
    cases conditions with
    | none => exact h
    | some conditions =>
      have hzip : (plan.branches.map Prod.fst).zip branchIds =
          (conditions.zip branchIds).map fun condition => (.int64 condition.1,condition.2) := by
        rw [simpleCaseI32Conditions_eq hconditions,List.zip_map_left]
        rfl
      refine (foldlM_congr (fun row _ groups => ?_) groups).trans h
      rw [hzip,simpleCaseI32GroupId_eq]
  | int64 values => exact h
  | uint64 values => exact h
  | float64 values => exact h
  | date32 values => exact h
  | date64 values => exact h
  | timestampMillisecond values timezone => exact h
  | decimal128 values precision scale => exact h
  | utf8 values => exact h
  | other name values => exact h

theorem CaseState.Holds.update (h : CaseState.Holds ops kind plan rows table branchIds elseId) {id : ℕ}
    {key : GroupValue} (hid : table.keyAt CountSumGroup.key id = some key) (cell : Option Scalar) :
    CaseState.Holds ops kind plan (rows + {(key,cell)}) (table.update (·.update ops cell) id) branchIds elseId := by
  have hkey : ∀ group : CountSumGroup, (group.update ops cell).key = group.key := fun group => group.key_update cell
  refine ⟨Table.Holds.update h.held hid hkey fun held group hgroup => hgroup.update cell,?_,?_⟩
  · exact h.branches.imp fun key id hat => (Table.keyAt_update hkey _ id).trans hat
  · exact (Table.keyAt_update hkey _ elseId).trans h.otherwise

theorem CaseState.Holds.batch (h : CaseState.Holds ops kind plan rows table branchIds elseId) {groups : List CountSumGroup}
    (hgroups : updateSimpleCaseKeyCountSumGroups ops plan keyColumn sumColumn branchIds elseId table.groups = .ok groups) :
    ∃ l, (List.range keyColumn.len).mapM (fun row =>
        (simpleCaseGroupIdForRow keyColumn row plan.branches plan.elseValue).map fun key =>
          (key,sumColumn.cells[row]?.join)) = .ok l ∧
      CaseState.Holds ops kind plan (rows + (l : Multiset _)) { table with groups } branchIds elseId := by
  have hfold := foldlM_ok_inv (fun seen groups => ∃ l, List.Forall₂ (fun row entry =>
        (simpleCaseGroupIdForRow keyColumn row plan.branches plan.elseValue).map (fun key =>
          (key,sumColumn.cells[row]?.join)) = .ok entry) seen l ∧
      CaseState.Holds ops kind plan (rows + (l : Multiset _)) { table with groups } branchIds elseId)
    ⟨[],.nil,by rw [Multiset.coe_nil,add_zero]; exact h⟩ ?_ (updateSimpleCaseKeyCountSumGroups_eq hgroups)
  · obtain ⟨l,hl,hheld⟩ := hfold
    exact ⟨l,mapM_ok_iff.mpr hl,hheld⟩
  rintro seen row groups groups' ⟨l,hl,hheld⟩ hrow
  obtain ⟨id,hid,rfl⟩ := map_eq_ok_iff.mp hrow
  obtain ⟨key,hkey,hat⟩ := simpleCaseGroupIdForRow_of_ids (forall₂_zip_ids hheld.branches)
    (R := fun key id => Table.keyAt CountSumGroup.key ⟨table.index,groups⟩ id = some key) hheld.otherwise hid
  refine ⟨l ++ [(key,sumColumn.cells[row]?.join)],List.rel_append hl (.cons ?_ .nil),?_⟩
  · rw [hkey]
    rfl
  · rw [← Multiset.coe_add,← add_assoc]
    exact hheld.update hat _

/-- What a run has done: nothing before the first row, and from then on it holds the rows. -/
structure CaseRun (ops : FloatOps) (plan : SimpleCaseKeyCountSumPlan) (stream : List (Result RecordBatch))
    (rows : List (GroupValue × Option Scalar)) (state : CaseState) : Prop where
  start : state.ids = none → rows = [] ∧ state.table = ⟨∅,[]⟩
  held : ∀ ids, state.ids = some ids → rows ≠ [] ∧ ∃ kind, CaseState.Holds ops kind plan rows state.table ids.1 ids.2 ∧
    ∀ kind', OneSumKind plan kind' stream → kind = kind'
  sums : ∀ kind, OneSumKind plan kind stream → ∀ row ∈ rows, ∀ value, row.2 = some value → kind.Sums value

theorem exists_of_some_mem {α : Type} {f : α → Scalar} {values : List (Option α)} {value : Scalar}
    (h : some value ∈ values.map (·.map f)) : ∃ x, f x = value := by
  obtain ⟨v,-,hv⟩ := List.mem_map.mp h
  obtain ⟨x,-,heq⟩ := Option.map_eq_some_iff.mp hv
  exact ⟨x,heq⟩

theorem sums_of_kind {expr : AggregateExpr} (h : countSumOutputKind column expr = .ok kind)
    {value : Scalar} (hvalue : some value ∈ column.cells) : kind.Sums value := by
  cases column with
  | int32 values | int64 values | float64 values =>
    cases h
    obtain ⟨x,rfl⟩ := exists_of_some_mem hvalue
    exact trivial
  | decimal128 values precision scale =>
    cases h
    obtain ⟨x,rfl⟩ := exists_of_some_mem hvalue
    exact rfl
  | uint64 values => cases h
  | date32 values => cases h
  | date64 values => cases h
  | timestampMillisecond values timezone => cases h
  | utf8 values => cases h
  | other name values => cases h

theorem simpleCaseBatch_of_rows {batch : RecordBatch} (hrows : batch.numRows ≠ 0)
    (h : simpleCaseBatch ops plan state (.ok batch) = .ok state') :
    ∃ keyColumn sumColumn kind ids table groups, batch.column plan.column = .ok keyColumn ∧
      batch.column plan.sumColumn = .ok sumColumn ∧ countSumOutputKind sumColumn (.sum plan.sumColumn) = .ok kind ∧
      (ids,table) = state.ids.elim (simpleCaseGroupIds plan kind state.table) (fun ids => (ids,state.table)) ∧
      updateSimpleCaseKeyCountSumGroups ops plan keyColumn sumColumn ids.1 ids.2 table.groups = .ok groups ∧
      state' = ⟨{ table with groups },some ids⟩ := by
  have hbatch : simpleCaseBatch ops plan state (.ok batch) = if batch.numRows = 0 then .ok state else _ := rfl
  rw [hbatch,if_neg hrows] at h
  obtain ⟨keyColumn,hkeyColumn,hkey⟩ := bind_eq_ok_iff.mp h
  obtain ⟨sumColumn,hsumColumn,hsum⟩ := bind_eq_ok_iff.mp hkey
  obtain ⟨kind,hkind,hupdate⟩ := bind_eq_ok_iff.mp hsum
  obtain ⟨groups,hgroups,heq⟩ := map_eq_ok_iff.mp hupdate
  exact ⟨keyColumn,sumColumn,kind,_,_,groups,hkeyColumn,hsumColumn,hkind,rfl,hgroups,heq.symm⟩

theorem column_len {batch : RecordBatch} {name : String} (h : batch.column name = .ok column) :
    column.len = batch.numRows := by
  obtain ⟨index,-,hcolumn⟩ := bind_eq_ok_iff.mp h
  cases hfield : batch.columns[index]? with
  | none =>
    rw [hfield] at hcolumn
    cases hcolumn
  | some field =>
    rw [hfield] at hcolumn
    cases hcolumn
    exact batch.lengths field (List.mem_of_getElem? hfield)

theorem CaseRun.batch {seen : List (GroupValue × Option Scalar)} {batch : Result RecordBatch} (h : CaseRun ops plan stream seen state)
    (hmem : batch ∈ stream) (hstep : simpleCaseBatch ops plan state batch = .ok state') :
    ∃ l, batch.bind (caseRows plan) = .ok l ∧ CaseRun ops plan stream (seen ++ l) state' := by
  cases batch with
  | error e => cases hstep
  | ok batch =>
    change ∃ l, caseRows plan batch = .ok l ∧ _
    rw [caseRows]
    by_cases hempty : batch.numRows = 0
    · have hbatch : simpleCaseBatch ops plan state (.ok batch) = if batch.numRows = 0 then .ok state else _ := rfl
      rw [hbatch,if_pos hempty] at hstep
      cases hstep
      rw [if_pos hempty]
      exact ⟨[],rfl,by rw [List.append_nil]; exact h⟩
    obtain ⟨keyColumn,sumColumn,kind₀,ids,table,groups,hkey,hsum,hkind,hids,hgroups,rfl⟩ :=
      simpleCaseBatch_of_rows hempty hstep
    rw [if_neg hempty,hkey,hsum]
    have hheld : ∃ kind, CaseState.Holds ops kind plan seen table ids.1 ids.2 ∧
        ∀ kind', OneSumKind plan kind' stream → kind = kind' := by
      cases hstate : state.ids with
      | none =>
        obtain ⟨rfl,htable⟩ := h.start hstate
        rw [hstate,htable] at hids
        cases hids
        exact ⟨kind₀,simpleCaseGroupIds_holds kind₀,fun kind' hone => hone batch hmem hempty sumColumn hsum kind₀ hkind⟩
      | some ids' =>
        rw [hstate] at hids
        cases hids
        exact (h.held ids hstate).2
    obtain ⟨kind,hheld,hone⟩ := hheld
    obtain ⟨l,hl,hheld⟩ := hheld.batch hgroups
    have hall := mapM_ok_iff.mp hl
    refine ⟨l,hl,⟨fun hnone => (Option.some_ne_none _ hnone).elim,fun ids' hids' => ?_,?_⟩⟩
    · cases hids'
      refine ⟨fun hnil => hempty ?_,kind,hheld,hone⟩
      have hlen := hall.length_eq
      rw [List.length_range,column_len hkey,(List.append_eq_nil_iff.mp hnil).2] at hlen
      exact hlen
    · intro kind' hkind' row hrow value hvalue
      rcases List.mem_append.mp hrow with hrow | hrow
      · exact h.sums kind' hkind' row hrow value hvalue
      obtain ⟨i,-,hi⟩ := exists_of_forall₂_right hall hrow
      obtain ⟨key,-,rfl⟩ := map_eq_ok_iff.mp hi
      rw [← hkind' batch hmem hempty sumColumn hsum kind₀ hkind]
      exact sums_of_kind hkind (List.mem_of_getElem? (Option.join_eq_some_iff.mp hvalue))

theorem foldlM_simpleCaseBatch_run
    (h : stream.foldlM (simpleCaseBatch ops plan) ⟨⟨∅,[]⟩,none⟩ = .ok state) :
    ∃ rows, caseStreamRows plan stream = .ok rows ∧ CaseRun ops plan stream rows state := by
  have hfold := foldlM_ok_inv (fun seen state => (∀ batch ∈ seen, batch ∈ stream) →
      ∃ parts, List.Forall₂ (fun batch part => Except.bind batch (caseRows plan) = .ok part) seen parts ∧
        CaseRun ops plan stream parts.flatten state)
    (fun _ => ⟨[],.nil,⟨fun _ => ⟨rfl,rfl⟩,fun ids hids => (Option.some_ne_none ids hids.symm).elim,
      fun _ _ _ hrow => absurd hrow List.not_mem_nil⟩⟩) ?_ h
  · obtain ⟨parts,hparts,hrun⟩ := hfold fun _ hmem => hmem
    exact ⟨parts.flatten,map_eq_ok_iff.mpr ⟨parts,mapM_ok_iff.mpr hparts,rfl⟩,hrun⟩
  intro seen batch state state' hseen hstep hmem
  obtain ⟨parts,hparts,hrun⟩ := hseen fun b hb => hmem b (List.mem_append_left _ hb)
  obtain ⟨part,hpart,hrun'⟩ := hrun.batch (hmem batch (List.mem_append_right _ (List.mem_singleton.mpr rfl))) hstep
  refine ⟨parts ++ [part],List.rel_append hparts (.cons hpart .nil),?_⟩
  rw [List.flatten_concat]
  exact hrun'

end Run

section Groups
variable {ops : FloatOps} {plan : SimpleCaseKeyCountSumPlan} {stream : List (Result RecordBatch)}

theorem CaseState.Holds.finish {kind : CountSumOutputKind} {rows : List (GroupValue × Option Scalar)}
    {table : CaseTable} {branchIds : List ℕ} {elseId : ℕ}
    (h : CaseState.Holds ops kind plan rows table branchIds elseId)
    (hsums : ∀ row ∈ rows, ∀ value, row.2 = some value → kind.Sums value) {group : CountSumGroup}
    (hgroup : group ∈ table.groups) :
    ∃ cells : List (Option Scalar), (cells : Multiset (Option Scalar)) = valuesAt (rows : Multiset _) group.key ∧
      group.finish .countStar (.sum plan.sumColumn) = ⟨[group.key],[⟨.countStar,.count cells.length⟩,
        ⟨.sum plan.sumColumn,caseSum ops kind (cells.filterMap id)⟩]⟩ := by
  obtain ⟨cells,hcells,heq⟩ := h.held.grouping.holds group hgroup
  have hspec : HasSums ops kind cells group := by
    rw [heq]
    refine groupOfCells_spec group.key fun cell hcell value hvalue => ?_
    obtain rfl : cell = some value := hvalue
    have hvalues : some value ∈ valuesAt (rows : Multiset _) group.key := hcells ▸ Multiset.mem_coe.mpr hcell
    obtain ⟨row,hrow,hrow2⟩ := Multiset.mem_map.mp hvalues
    exact hsums row (Multiset.mem_of_mem_filter hrow) value hrow2
  refine ⟨cells,hcells,?_⟩
  rw [← hspec.sumValue,← hspec.count]
  rfl

variable {groups : List GroupAggregateResult}

theorem keys_perm {table : CaseTable}
    (hgroups : groups.Perm (table.groups.map (finish .countStar (.sum plan.sumColumn)))) :
    (groups.map GroupAggregateResult.keys).Perm ((table.groups.map key).map fun key => [key]) := by
  refine (hgroups.map _).trans (List.Perm.of_eq ?_)
  rw [List.map_map,List.map_map]
  rfl

theorem CaseState.Holds.groupsExact {kind : CountSumOutputKind} {rows : List (GroupValue × Option Scalar)}
    {table : CaseTable} {branchIds : List ℕ} {elseId : ℕ}
    (h : CaseState.Holds ops kind plan rows table branchIds elseId)
    (hgroups : groups.Perm (table.groups.map (CountSumGroup.finish .countStar (.sum plan.sumColumn)))) :
    (∀ kind, CaseGroupsExact ops kind plan rows groups → ∀ key ∈ plan.results, ∃ row ∈ rows, row.1 = key) ∧
    ((∀ key ∈ plan.results, ∃ row ∈ rows, row.1 = key) →
      (∀ row ∈ rows, ∀ value, row.2 = some value → kind.Sums value) → CaseGroupsExact ops kind plan rows groups) := by
  have hkeys := keys_perm hgroups
  have hmem : ∀ keys, keys ∈ groups.map GroupAggregateResult.keys ↔ ∃ key ∈ plan.results, [key] = keys := by
    intro keys
    rw [hkeys.mem_iff,List.mem_map]
    exact exists_congr fun key => and_congr_left fun _ => h.held.keys key
  constructor
  · intro kind' hexact key hkey
    obtain ⟨row,hrow,heq⟩ := (hexact.exists_iff [key]).mp ((hmem [key]).mpr ⟨key,hkey,rfl⟩)
    exact ⟨row,hrow,List.head_eq_of_cons_eq heq⟩
  · intro hidle hsums
    refine ⟨?_,fun keys => (hmem keys).trans ⟨?_,?_⟩,fun group hgroup => ?_⟩
    · exact hkeys.nodup_iff.mpr (h.held.grouping.nodup.map fun _ _ heq => List.head_eq_of_cons_eq heq)
    · rintro ⟨key,hkey,rfl⟩
      obtain ⟨row,hrow,rfl⟩ := hidle key hkey
      exact ⟨row,hrow,rfl⟩
    · rintro ⟨row,hrow,rfl⟩
      exact ⟨row.1,(h.held.keys _).mp (h.held.grouping.covers row hrow),rfl⟩
    · obtain ⟨g,hg,rfl⟩ := List.mem_map.mp (hgroups.mem_iff.mp hgroup)
      obtain ⟨cells,hcells,heq⟩ := h.finish hsums hg
      exact ⟨g.key,cells,rfl,hcells,congrArg GroupAggregateResult.values heq⟩

theorem simpleCase_groups {metrics : AggregateMetrics}
    (h : collectSimpleCaseKeyCountSumGroups ops plan stream = .ok metrics) :
    ∃ rows, caseStreamRows plan stream = .ok rows ∧
      (∀ kind, CaseGroupsExact ops kind plan rows metrics.groups → NoIdleBranch plan rows) ∧
      (NoIdleBranch plan rows → ∀ kind, OneSumKind plan kind stream → CaseGroupsExact ops kind plan rows metrics.groups) := by
  obtain ⟨state,hfold,rfl⟩ := map_eq_ok_iff.mp h
  obtain ⟨rows,hrows,hrun⟩ := foldlM_simpleCaseBatch_run hfold
  refine ⟨rows,hrows,?_⟩
  cases hids : state.ids with
  | none =>
    obtain ⟨rfl,htable⟩ := hrun.start hids
    rw [htable]
    refine ⟨fun _ _ hne => absurd rfl hne,fun _ kind _ => ⟨List.nodup_nil,fun keys => ?_,?_⟩⟩
    · exact iff_of_false List.not_mem_nil fun ⟨_,hrow,_⟩ => Multiset.notMem_zero _ hrow
    · exact fun _ hgroup => absurd hgroup List.not_mem_nil
  | some ids =>
    obtain ⟨hne,kind,hheld,hone⟩ := hrun.held ids hids
    obtain ⟨hidle,hexact⟩ := hheld.groupsExact (List.perm_insertionSort
      (fun left right : GroupAggregateResult => compareGroupKeys left.keys right.keys ≠ .gt) _)
    refine ⟨fun kind' h _ => hidle kind' h,fun hbranch kind' hkind' => ?_⟩
    obtain rfl := hone kind' hkind'
    exact hexact (hbranch hne) (hrun.sums kind hkind')

end Groups

end Dodam.Execution.Aggregate
