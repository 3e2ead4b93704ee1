import Dodam.Execution.Aggregate.Generic
import Dodam.Execution.Aggregate.Materialise
import Dodam.Foundation.Fold

/-! # When the batch of results is lossless

The cells of the batch are the values of the groups exactly when no column holds values of two
kinds.
-/
namespace Dodam.Execution.Aggregate
open Foundation AggregateValue DataType

/-- The type without what does not bear on the value: the precision of a decimal and the zone of an
instant. -/
def DataType.kind : DataType → DataType
  | .timestampMillisecond _ => .timestampMillisecond none
  | .decimal128 _ scale => .decimal128 0 scale
  | t => t

def AggregateValue.storedAs : DataType → AggregateValue → Option Scalar
  | .uint64, .count value => some (.uint64 value)
  | .float64, .float64 value => value.map .float64
  | .utf8, .utf8 value => value.map .utf8
  | .date32, .date32 value => value.map .date32
  | .date64, .date64 value => value.map .date64
  | .decimal128 _ scale, .decimal128 value _ _ => value.map (.decimal128 · scale)
  | .timestampMillisecond _, .timestampMillisecond value _ => value.map .timestampMillisecond
  | .int64, .int64 value => value.map .int64
  | _, _ => none

def groupValueStoredAs : DataType → GroupValue → Option Scalar
  | .utf8, .utf8 value => value.map .utf8
  | .uint64, .uint64 value => value.map .uint64
  | .decimal128 _ scale, .decimal128 value _ _ => value.map (.decimal128 · scale)
  | .date32, .date32 value => value.map .date32
  | .date64, .date64 value => value.map .date64
  | .int64, .int64 value => value.map .int64
  | _, _ => none

theorem AggregateValue.storedAs_eq_scalar {t : DataType} {v : AggregateValue} :
    v.storedAs t = v.scalar ↔ v.scalar = none ∨ v.dataType.kind = t.kind := by
  cases v with
  | count n => cases t <;> simp [storedAs,scalar,dataType,kind]
  | int64 value | float64 value | date32 value | date64 value | utf8 value | timestampMillisecond value timezone =>
    cases value <;> cases t <;> simp [storedAs,scalar,dataType,kind]
  | decimal128 value precision scale =>
    cases value <;> cases t <;> simp [storedAs,scalar,dataType,kind,eq_comm]

theorem groupValueStoredAs_eq_scalar {t : DataType} {key : GroupValue} :
    groupValueStoredAs t key = key.scalar ↔ key.scalar = none ∨ (groupValueDataType key).kind = t.kind := by
  cases key with
  | int64 value | uint64 value | date32 value | date64 value | utf8 value =>
    cases value <;> cases t <;> simp [groupValueStoredAs,GroupValue.scalar,groupValueDataType,kind]
  | decimal128 value precision scale =>
    cases value <;> cases t <;>
      simp [groupValueStoredAs,GroupValue.scalar,groupValueDataType,kind,eq_comm]

theorem aggregateColumnType_cases (values : List AggregateValue) :
    ∃ v : AggregateValue, aggregateColumnType values = v.dataType := by
  cases values with
  | nil => exact ⟨.int64 none,rfl⟩
  | cons v values => exact ⟨v,rfl⟩

theorem cells_aggregateValuesToColumn (name : String) (values : List AggregateValue) :
    (aggregateValuesToColumn name values).array.cells =
      values.map (storedAs (aggregateColumnType values)) := by
  obtain ⟨v,hv⟩ := aggregateColumnType_cases values
  rw [aggregateValuesToColumn,hv]
  cases v <;>
    simp only [dataType,ArrayRef.cells,List.map_map] <;>
    refine List.map_congr_left fun w _ => ?_ <;>
    cases w <;> rfl

theorem groupColumnType_cases (values : List (Option GroupValue)) :
    ∃ key, groupColumnType values = groupValueDataType key := by
  unfold groupColumnType
  cases h : values.findSome? (·.map groupValueDataType) with
  | none => exact ⟨.int64 none,rfl⟩
  | some t =>
    obtain ⟨key,-,hkey⟩ := List.exists_of_findSome?_eq_some h
    obtain ⟨k,-,rfl⟩ := Option.map_eq_some_iff.mp hkey
    exact ⟨k,rfl⟩

theorem cells_groupValuesToColumn (name : String) (keys : List GroupValue) :
    (groupValuesToColumn name (keys.map some)).array.cells =
      keys.map (groupValueStoredAs (groupColumnType (keys.map some))) := by
  obtain ⟨key,hkey⟩ := groupColumnType_cases (keys.map some)
  rw [groupValuesToColumn,hkey]
  cases key <;>
    simp only [groupValueDataType,ArrayRef.cells,List.map_map] <;>
    refine List.map_congr_left fun k _ => ?_ <;>
    cases k <;> rfl

section Columns

def keyColumn (groups : List GroupAggregateResult) (k : ℕ) : List GroupValue :=
  groups.filterMap fun group => group.keys[k]?

def valueColumn (groups : List GroupAggregateResult) (j : ℕ) : List AggregateValue :=
  (groups.filterMap fun group => group.values[j]?).map AggregateResult.value

def KeysUniform (keys : List GroupValue) : Prop :=
  ∀ key ∈ keys, key.scalar = none ∨ (groupValueDataType key).kind = (groupColumnType (keys.map some)).kind

/-- Every value that is not NULL is of the kind of the first value. -/
def ValuesUniform (values : List AggregateValue) : Prop :=
  ∀ v ∈ values, v.scalar = none ∨ v.dataType.kind = (aggregateColumnType values).kind

/-- A value that is not an integer tells the kind of the sums. -/
def nextOutput (output : CountSumOutputKind) : AggregateValue → CountSumOutputKind
  | .float64 _ => .float64
  | .decimal128 _ _ scale => .decimal128 scale
  | _ => output

def countSumOutput (values : List AggregateValue) : CountSumOutputKind := values.foldl nextOutput .int64

def CountSumOutputKind.dataType : CountSumOutputKind → DataType
  | int64 => .int64
  | float64 => .float64
  | decimal128 scale => .decimal128 38 scale

def SumsUniform (values : List AggregateValue) : Prop :=
  ∀ v ∈ values, v.scalar = none ∨ v.dataType.kind = (countSumOutput values).dataType.kind

instance (keys : List GroupValue) : Decidable (KeysUniform keys) := List.decidableBAll _ keys
instance (values : List AggregateValue) : Decidable (ValuesUniform values) := List.decidableBAll _ values
instance (values : List AggregateValue) : Decidable (SumsUniform values) := List.decidableBAll _ values

def CountSumShaped (groups : List GroupAggregateResult) (aggregates : List AggregateExpr) : Prop :=
  isCountSum aggregates ∧ ∀ group ∈ groups, (countSumValues group).isSome

instance (groups : List GroupAggregateResult) (aggregates : List AggregateExpr) :
    Decidable (CountSumShaped groups aggregates) := inferInstanceAs (Decidable (_ ∧ _))

structure ColumnsUniform (groups : List GroupAggregateResult) (groupBy : List String)
    (aggregates : List AggregateExpr) : Prop where
  keys : ∀ k < groupBy.length, KeysUniform (keyColumn groups k)
  sums : CountSumShaped groups aggregates → SumsUniform (valueColumn groups 1)
  values : ¬CountSumShaped groups aggregates → ∀ j < aggregates.length, ValuesUniform (valueColumn groups j)

def Shaped (groupBy : List String) (aggregates : List AggregateExpr) (groups : List GroupAggregateResult) : Prop :=
  ∀ group ∈ groups, group.keys.length = groupBy.length ∧ group.values.length = aggregates.length

/-- The cells of the batch are the keys and values of the groups, NULL only where they are. -/
structure Lossless (groups : List GroupAggregateResult) (groupBy : List String) (batch : RecordBatch) :
    Prop where
  numRows : batch.numRows = groups.length
  keys : ∀ i group k key, groups[i]? = some group → group.keys[k]? = some key →
    batch.cell k i = some key.scalar
  values : ∀ i group j result, groups[i]? = some group → group.values[j]? = some result →
    batch.cell (groupBy.length + j) i = some result.value.scalar

variable {groups : List GroupAggregateResult} {groupBy : List String} {aggregates : List AggregateExpr}
variable {k j : ℕ}

theorem Shaped.map_keys (h : Shaped groupBy aggregates groups) (hk : k < groupBy.length) :
    (groups.map fun group => group.keys[k]?) = (keyColumn groups k).map some := by
  unfold keyColumn
  rw [List.map_filterMap]
  have hall : ∀ group ∈ groups, ∃ key, group.keys[k]? = some key := fun group hg =>
    ⟨_,List.getElem?_eq_getElem (by rw [(h group hg).1]; exact hk)⟩
  clear h
  induction groups with
  | nil => rfl
  | cons group groups ih =>
    obtain ⟨key,hkey⟩ := hall group List.mem_cons_self
    rw [List.map_cons,List.filterMap_cons_some (by rw [hkey]; rfl),
      ih fun g hg => hall g (List.mem_cons_of_mem _ hg),hkey]

theorem Shaped.valueColumn_eq (h : Shaped groupBy aggregates groups) (hj : j < aggregates.length) :
    (valueColumn groups j).map some = groups.map fun group => group.values[j]?.map AggregateResult.value := by
  unfold valueColumn
  rw [List.map_map,List.map_filterMap]
  have hall : ∀ group ∈ groups, ∃ result, group.values[j]? = some result := fun group hg =>
    ⟨_,List.getElem?_eq_getElem (by rw [(h group hg).2]; exact hj)⟩
  clear h
  induction groups with
  | nil => rfl
  | cons group groups ih =>
    obtain ⟨result,hresult⟩ := hall group List.mem_cons_self
    rw [List.map_cons,List.filterMap_cons_some (by rw [hresult]; rfl),
      ih fun g hg => hall g (List.mem_cons_of_mem _ hg),hresult]
    rfl

theorem Shaped.keyColumn_getElem? (h : Shaped groupBy aggregates groups) (hk : k < groupBy.length)
    (i : ℕ) : (keyColumn groups k)[i]? = groups[i]?.bind fun group => group.keys[k]? := by
  have hmap := congrArg (·[i]?) (h.map_keys hk)
  simp only [List.getElem?_map] at hmap
  cases hg : groups[i]? with
  | none =>
    rw [hg] at hmap
    exact Option.map_eq_none_iff.mp hmap.symm
  | some group =>
    rw [hg] at hmap
    obtain ⟨key,hkey,hsome⟩ := Option.map_eq_some_iff.mp hmap.symm
    rw [hkey]
    exact hsome

theorem Shaped.valueColumn_getElem? (h : Shaped groupBy aggregates groups) (hj : j < aggregates.length)
    (i : ℕ) : (valueColumn groups j)[i]? =
      groups[i]?.bind fun group => group.values[j]?.map AggregateResult.value := by
  have hmap := congrArg (·[i]?) (h.valueColumn_eq hj)
  simp only [List.getElem?_map] at hmap
  cases hg : groups[i]? with
  | none =>
    rw [hg] at hmap
    exact Option.map_eq_none_iff.mp hmap
  | some group =>
    rw [hg] at hmap
    obtain ⟨value,hvalue,hsome⟩ := Option.map_eq_some_iff.mp hmap
    rw [hvalue]
    exact hsome

theorem Shaped.length_keyColumn (h : Shaped groupBy aggregates groups) (hk : k < groupBy.length) :
    (keyColumn groups k).length = groups.length := by
  simpa using (congrArg List.length (h.map_keys hk)).symm

theorem Shaped.length_valueColumn (h : Shaped groupBy aggregates groups) (hj : j < aggregates.length) :
    (valueColumn groups j).length = groups.length := by
  simpa using congrArg List.length (h.valueColumn_eq hj)

end Columns

section Loop

def sumI64 : AggregateValue → Option ℤ
  | .int64 value => value
  | .float64 value => value.map F64.asI64
  | _ => none

structure CountSumLoop.After (s : CountSumLoop) (seen : List GroupAggregateResult) : Prop where
  counts : s.counts.map count = valueColumn seen 0
  sums : s.sumsI64 = (valueColumn seen 1).map sumI64
  nulls : s.sumsHaveNulls = (valueColumn seen 1).any fun v => v.scalar.isNone
  output : s.sumOutput = countSumOutput (valueColumn seen 1)

variable {group : GroupAggregateResult} {result : AggregateResult} {s : CountSumLoop}
variable {seen : List GroupAggregateResult}

theorem valueColumn_concat {j : ℕ}
    (h : group.values[j]? = some result) (seen : List GroupAggregateResult) :
    valueColumn (seen ++ [group]) j = valueColumn seen j ++ [result.value] := by
  simp [valueColumn,List.filterMap_append,h]

theorem CountSumLoop.After.push {s' : CountSumLoop} (h : s.After seen) {e e' : AggregateExpr} {n : ℕ} {v : AggregateValue}
    {rest : List AggregateResult} (hgroup : group.values = ⟨e,.count n⟩ :: ⟨e',v⟩ :: rest)
    (hcounts : s'.counts = s.counts ++ [n]) (hsums : s'.sumsI64 = s.sumsI64 ++ [sumI64 v])
    (hnulls : s'.sumsHaveNulls = (s.sumsHaveNulls || v.scalar.isNone))
    (houtput : s'.sumOutput = nextOutput s.sumOutput v) : s'.After (seen ++ [group]) := by
  have hcount : group.values[0]? = some ⟨e,.count n⟩ := by
    rw [hgroup]
    rfl
  have hsum : group.values[1]? = some ⟨e',v⟩ := by
    rw [hgroup]
    rfl
  have h0 := valueColumn_concat hcount seen
  have h1 := valueColumn_concat hsum seen
  constructor
  · rw [h0,← h.counts,hcounts]
    exact List.map_append
  · rw [h1,List.map_append,← h.sums]
    exact hsums
  · rw [h1,List.any_append,← h.nulls,hnulls]
    simp
  · rw [h1,countSumOutput,List.foldl_append,houtput,h.output]
    rfl

theorem countSumStep_after (h : s.After seen) (hgroup : (countSumValues group).isSome) :
    ∃ s', countSumStep s group = some s' ∧ s'.After (seen ++ [group]) := by
  unfold countSumStep
  unfold countSumValues at hgroup ⊢
  split at hgroup
  · next e n e' value rest heq => exact ⟨_,rfl,h.push heq rfl rfl (by cases value <;> rfl) rfl⟩
  · next e n e' value rest heq => exact ⟨_,rfl,h.push heq rfl rfl (by cases value <;> rfl) rfl⟩
  · next e n e' value precision scale rest heq => exact ⟨_,rfl,h.push heq rfl rfl (by cases value <;> rfl) rfl⟩
  · cases hgroup

theorem countSum_after {groups : List GroupAggregateResult} (h : s.After seen)
    (hgroups : ∀ group ∈ groups, (countSumValues group).isSome) :
    ∃ s', groups.foldlM countSumStep s = some s' ∧ s'.After (seen ++ groups) := by
  induction groups generalizing seen s with
  | nil => exact ⟨s,rfl,by rw [List.append_nil]; exact h⟩
  | cons group groups ih =>
    obtain ⟨s',hs',hafter⟩ := countSumStep_after h (hgroups group List.mem_cons_self)
    obtain ⟨t,ht,htafter⟩ := ih hafter fun g hg => hgroups g (List.mem_cons_of_mem _ hg)
    refine ⟨t,?_,by rw [List.append_assoc] at htafter; exact htafter⟩
    rw [List.foldlM_cons,hs']
    exact ht

theorem countSum_none {groups : List GroupAggregateResult}
    (hmem : group ∈ groups) (hgroup : (countSumValues group).isNone) (s : CountSumLoop) :
    groups.foldlM countSumStep s = none := by
  induction groups generalizing s with
  | nil => cases hmem
  | cons g groups ih =>
    rw [List.foldlM_cons]
    rcases List.mem_cons.mp hmem with rfl | hrest
    · have hstep : countSumStep s group = none := by
        rw [countSumStep,Option.isNone_iff_eq_none.mp hgroup]
      rw [hstep]
      rfl
    · cases hstep : countSumStep s g with
      | none => rfl
      | some s' => exact ih hrest s'

theorem isInt_of_countSumOutput {values : List AggregateValue} {output : CountSumOutputKind}
    (h : values.foldl nextOutput output = .int64) : output = .int64 ∧ ∀ v ∈ values, nextOutput .int64 v = .int64 := by
  induction values generalizing output with
  | nil => exact ⟨h,List.forall_mem_nil _⟩
  | cons v values ih =>
    obtain ⟨hnext,hrest⟩ := ih h
    cases v with
    | float64 value => cases hnext
    | decimal128 value precision scale => cases hnext
    | _ => exact ⟨hnext,List.forall_mem_cons.mpr ⟨rfl,hrest⟩⟩

theorem countSumValues_kind
    (hgroup : (countSumValues group).isSome) (hresult : group.values[1]? = some result)
    (hint : nextOutput .int64 result.value = .int64) : ∃ value, result.value = .int64 value := by
  unfold countSumValues at hgroup
  split at hgroup
  · next e n e' value rest heq =>
    rw [heq] at hresult
    cases hresult
    exact ⟨value,rfl⟩
  · next e n e' value rest heq =>
    rw [heq] at hresult
    cases hresult
    cases hint
  · next e n e' value precision scale rest heq =>
    rw [heq] at hresult
    cases hresult
    cases hint
  · cases hgroup

theorem countSumValues_count
    (hgroup : (countSumValues group).isSome) (hresult : group.values[0]? = some result) :
    ∃ n, result.value = .count n := by
  unfold countSumValues at hgroup
  split at hgroup
  · next e n e' value rest heq =>
    rw [heq] at hresult
    cases hresult
    exact ⟨n,rfl⟩
  · next e n e' value rest heq =>
    rw [heq] at hresult
    cases hresult
    exact ⟨n,rfl⟩
  · next e n e' value precision scale rest heq =>
    rw [heq] at hresult
    cases hresult
    exact ⟨n,rfl⟩
  · cases hgroup

/-- The column of the sums has their last kind that is not an integer. -/
theorem countSumColumn_cells (name : String) {groups : List GroupAggregateResult}
    (hs : s.After groups) (hgroups : ∀ group ∈ groups, (countSumValues group).isSome)
    (hsecond : (valueColumn groups 1).map some = secondValues groups) :
    ∃ field, countSumColumn name groups s = .ok field ∧ field.array.cells =
      (valueColumn groups 1).map (storedAs (countSumOutput (valueColumn groups 1)).dataType) := by
  rw [countSumColumn,hs.output,← hsecond]
  cases hout : countSumOutput (valueColumn groups 1) with
  | float64 | decimal128 scale =>
    refine ⟨_,rfl,?_⟩
    simp only [ArrayRef.cells,List.map_map]
    exact List.map_congr_left fun v _ => by cases v <;> rfl
  | int64 =>
    have hint : ∀ v ∈ valueColumn groups 1, ∃ value, v = .int64 value := by
      intro v hv
      obtain ⟨result,hresult,rfl⟩ := List.mem_map.mp hv
      obtain ⟨group,hgroup,hget⟩ := List.mem_filterMap.mp hresult
      exact countSumValues_kind (hgroups group hgroup) hget ((isInt_of_countSumOutput hout).2 _ hv)
    have hcells : (s.sumsI64.map fun value => value.map Scalar.int64) =
        (valueColumn groups 1).map (storedAs .int64) := by
      rw [hs.sums,List.map_map]
      refine List.map_congr_left fun v hv => ?_
      obtain ⟨value,rfl⟩ := hint v hv
      rfl
    cases hnulls : s.sumsHaveNulls with
    | true => exact ⟨_,rfl,hcells⟩
    | false =>
      obtain ⟨values,hvalues⟩ : ∃ values : List ℤ, s.sumsI64 = values.map some := by
        refine exists_map_some fun value hvalue => ?_
        rw [hs.sums] at hvalue
        obtain ⟨v,hv,rfl⟩ := List.mem_map.mp hvalue
        rw [hs.nulls,List.any_eq_false] at hnulls
        have hnot := hnulls v hv
        obtain ⟨n,rfl⟩ := hint v hv
        cases n with
        | none => exact absurd rfl hnot
        | some n => rfl
      rw [hvalues] at hcells
      refine ⟨⟨name,.int64 (values.map some)⟩,?_,hcells⟩
      rw [hvalues,mapM_id_map_some]
      rfl

end Loop

section Batch
variable {groups : List GroupAggregateResult} {groupBy : List String} {aggregates : List AggregateExpr}

theorem tryNew_ok {columns : List Field} {n : ℕ} (hne : columns ≠ []) (h : ∀ column ∈ columns, column.array.len = n) :
    RecordBatch.tryNew columns = .ok ⟨columns,n,h⟩ := by
  cases columns with
  | nil => exact absurd rfl hne
  | cons first rest =>
    have hn := h first List.mem_cons_self
    subst hn
    exact dif_pos h

structure Stores (groups : List GroupAggregateResult) (groupBy : List String) (aggregates : List AggregateExpr)
    (types : ℕ → DataType) (batch : RecordBatch) : Prop where
  numRows : batch.numRows = groups.length
  keys : ∀ k < groupBy.length, ∃ field, batch.columns[k]? = some field ∧ field.array.cells =
    (keyColumn groups k).map (groupValueStoredAs (groupColumnType ((keyColumn groups k).map some)))
  values : ∀ j < aggregates.length, ∃ field, batch.columns[groupBy.length + j]? = some field ∧
    field.array.cells = (valueColumn groups j).map (storedAs (types j))

variable {types : ℕ → DataType} {batch : RecordBatch} {group : GroupAggregateResult}
variable {metrics : AggregateMetrics}

theorem Stores.key_cell (h : Stores groups groupBy aggregates types batch)
    (hshaped : Shaped groupBy aggregates groups) {k : ℕ} (hk : k < groupBy.length) {i : ℕ} {key : GroupValue} (hi : groups[i]? = some group)
    (hkey : group.keys[k]? = some key) : batch.cell k i =
      some (groupValueStoredAs (groupColumnType ((keyColumn groups k).map some)) key) := by
  obtain ⟨field,hfield,hcells⟩ := h.keys k hk
  rw [RecordBatch.cell,hfield,Option.bind_some,hcells,List.getElem?_map,hshaped.keyColumn_getElem? hk,hi,
    Option.bind_some,hkey]
  rfl

theorem Stores.value_cell (h : Stores groups groupBy aggregates types batch)
    (hshaped : Shaped groupBy aggregates groups) {j : ℕ} (hj : j < aggregates.length) {i : ℕ} {result : AggregateResult} (hi : groups[i]? = some group)
    (hresult : group.values[j]? = some result) :
    batch.cell (groupBy.length + j) i = some (result.value.storedAs (types j)) := by
  obtain ⟨field,hfield,hcells⟩ := h.values j hj
  rw [RecordBatch.cell,hfield,Option.bind_some,hcells,List.getElem?_map,hshaped.valueColumn_getElem? hj,hi,
    Option.bind_some,hresult]
  rfl

/-- The batch is lossless when every value is of the kind of its column. -/
theorem Stores.lossless_iff
    (h : Stores groups groupBy aggregates types batch) (hshaped : Shaped groupBy aggregates groups) :
    Lossless groups groupBy batch ↔ (∀ k < groupBy.length, KeysUniform (keyColumn groups k)) ∧
      ∀ j < aggregates.length, ∀ v ∈ valueColumn groups j, v.scalar = none ∨ v.dataType.kind = (types j).kind := by
  constructor
  · intro hlossless
    constructor
    · intro k hk key hmem
      obtain ⟨group,hgroup,hkey⟩ := List.mem_filterMap.mp hmem
      obtain ⟨i,hi⟩ := List.mem_iff_getElem?.mp hgroup
      have hcell := hlossless.keys i group k key hi hkey
      rw [h.key_cell hshaped hk hi hkey] at hcell
      exact groupValueStoredAs_eq_scalar.mp (Option.some.inj hcell)
    · intro j hj v hmem
      obtain ⟨result,hresult,rfl⟩ := List.mem_map.mp hmem
      obtain ⟨group,hgroup,hget⟩ := List.mem_filterMap.mp hresult
      obtain ⟨i,hi⟩ := List.mem_iff_getElem?.mp hgroup
      have hcell := hlossless.values i group j result hi hget
      rw [h.value_cell hshaped hj hi hget] at hcell
      exact storedAs_eq_scalar.mp (Option.some.inj hcell)
  · rintro ⟨hkeys,hvalues⟩
    refine ⟨h.numRows,?_,?_⟩
    · intro i group k key hi hkey
      have hmem := List.mem_of_getElem? hi
      have hk : k < groupBy.length := by
        rw [← (hshaped group hmem).1]
        exact (List.getElem?_eq_some_iff.mp hkey).1
      rw [h.key_cell hshaped hk hi hkey]
      exact congrArg some (groupValueStoredAs_eq_scalar.mpr
        (hkeys k hk key (List.mem_filterMap.mpr ⟨group,hmem,hkey⟩)))
    · intro i group j result hi hresult
      have hmem := List.mem_of_getElem? hi
      have hj : j < aggregates.length := by
        rw [← (hshaped group hmem).2]
        exact (List.getElem?_eq_some_iff.mp hresult).1
      rw [h.value_cell hshaped hj hi hresult]
      refine congrArg some (storedAs_eq_scalar.mpr (hvalues j hj _ ?_))
      exact List.mem_map.mpr ⟨result,List.mem_filterMap.mpr ⟨group,hmem,hresult⟩,rfl⟩

theorem key_fields (hshaped : Shaped groupBy aggregates groups) {k : ℕ} (hk : k < groupBy.length) (rest : List Field) :
    ∃ field, (groupBy.mapIdx (fun index column =>
        groupValuesToColumn column (groups.map fun group => group.keys[index]?)) ++ rest)[k]? = some field ∧
      field.array.cells =
        (keyColumn groups k).map (groupValueStoredAs (groupColumnType ((keyColumn groups k).map some))) := by
  refine ⟨groupValuesToColumn groupBy[k] ((keyColumn groups k).map some),?_,cells_groupValuesToColumn _ _⟩
  rw [List.getElem?_append_left (by rw [List.length_mapIdx]; exact hk),List.getElem?_mapIdx,
    List.getElem?_eq_getElem hk,← hshaped.map_keys hk]
  rfl

theorem length_of_isCountSum (h : isCountSum aggregates) : aggregates.length = 2 := by
  unfold isCountSum at h
  split at h
  · rfl
  · rfl
  · cases h

theorem countSumMetricsToBatch_stores (hshaped : Shaped groupBy aggregates metrics.groups)
    (h : CountSumShaped metrics.groups aggregates) :
    ∃ batch, countSumMetricsToBatch metrics groupBy aggregates = .ok (some batch) ∧
      Stores metrics.groups groupBy aggregates
        (fun j => if j = 0 then .uint64 else (countSumOutput (valueColumn metrics.groups 1)).dataType) batch := by
  obtain ⟨hshape,hgroups⟩ := h
  obtain ⟨count,sum,rfl⟩ := List.length_eq_two.mp (length_of_isCountSum hshape)
  have hstart : CountSumLoop.After {} [] := ⟨rfl,rfl,rfl,rfl⟩
  obtain ⟨s,hs,hafter⟩ := countSum_after hstart hgroups
  rw [List.nil_append] at hafter
  have hfirst := hshaped.length_valueColumn (j := 0) Nat.zero_lt_two
  have hsecond := hshaped.valueColumn_eq (j := 1) Nat.one_lt_two
  obtain ⟨sums,hsums,hcells⟩ := countSumColumn_cells sum.display hafter hgroups hsecond
  have hcounts : (ArrayRef.uint64 (s.counts.map some)).cells =
      (valueColumn metrics.groups 0).map (storedAs .uint64) := by
    rw [← hafter.counts]
    simp only [ArrayRef.cells,List.map_map]
    rfl
  have hlen : ∀ column ∈ groupBy.mapIdx (fun index column => groupValuesToColumnFromGroups column metrics.groups index) ++
      [⟨count.display,.uint64 (s.counts.map some)⟩,sums], column.array.len = metrics.groups.length := by
    intro column hmem
    rcases List.mem_append.mp hmem with hkey | hrest
    · obtain ⟨k,hk,rfl⟩ := List.mem_mapIdx.mp hkey
      rw [groupValuesToColumnFromGroups,hshaped.map_keys hk,ArrayRef.len,cells_groupValuesToColumn,List.length_map]
      exact hshaped.length_keyColumn hk
    · rcases List.mem_cons.mp hrest with rfl | hrest
      · rw [ArrayRef.len,hcounts,List.length_map]
        exact hfirst
      · rw [List.mem_singleton.mp hrest,ArrayRef.len,hcells,List.length_map]
        exact hshaped.length_valueColumn Nat.one_lt_two
  refine ⟨⟨_,_,hlen⟩,?_,⟨rfl,fun k hk => key_fields hshaped hk _,?_⟩⟩
  · rw [countSumMetricsToBatch,if_pos hshape,hs]
    show (countSumColumn sum.display metrics.groups s).bind _ = _
    rw [hsums]
    show (RecordBatch.tryNew _).map some = _
    rw [tryNew_ok (List.append_ne_nil_of_right_ne_nil _ (List.cons_ne_nil _ _)) hlen]
    rfl
  · intro j hj
    rw [List.getElem?_append_right (by rw [List.length_mapIdx]; omega),List.length_mapIdx,Nat.add_sub_cancel_left]
    match j,hj with
    | 0,_ => exact ⟨_,rfl,hcounts⟩
    | 1,_ => exact ⟨_,rfl,hcells⟩

theorem countSumMetricsToBatch_none (h : ¬CountSumShaped metrics.groups aggregates) :
    countSumMetricsToBatch metrics groupBy aggregates = .ok none := by
  unfold countSumMetricsToBatch
  split
  · next count sum =>
    split_ifs with hshape
    · have hmem : ∃ group ∈ metrics.groups, (countSumValues group).isNone := by
        by_contra hcon
        refine h ⟨hshape,fun group hgroup => ?_⟩
        cases hvalues : countSumValues group with
        | some values => rfl
        | none => exact absurd ⟨group,hgroup,by rw [hvalues]; rfl⟩ hcon
      obtain ⟨group,hgroup,hnone⟩ := hmem
      rw [countSum_none hgroup hnone]
    · rfl
  · rfl

theorem tryNew_stores (hne : groupBy ≠ []) (hshaped : Shaped groupBy aggregates groups) :
    ∃ batch, RecordBatch.tryNew
        (groupBy.mapIdx (fun index column =>
            groupValuesToColumn column (groups.map fun group => group.keys[index]?)) ++
          aggregates.mapIdx fun index aggregate => aggregateValuesToColumn aggregate.display
            ((groups.filterMap fun group => group.values[index]?).map AggregateResult.value)) = .ok batch ∧
      Stores groups groupBy aggregates (fun j => aggregateColumnType (valueColumn groups j)) batch := by
  have hlen : ∀ column ∈ groupBy.mapIdx (fun index column =>
        groupValuesToColumn column (groups.map fun group => group.keys[index]?)) ++
      aggregates.mapIdx (fun index aggregate => aggregateValuesToColumn aggregate.display
        ((groups.filterMap fun group => group.values[index]?).map AggregateResult.value)),
      column.array.len = groups.length := by
    intro column hmem
    rcases List.mem_append.mp hmem with hkey | hvalue
    · obtain ⟨k,hk,rfl⟩ := List.mem_mapIdx.mp hkey
      rw [hshaped.map_keys hk,ArrayRef.len,cells_groupValuesToColumn,List.length_map]
      exact hshaped.length_keyColumn hk
    · obtain ⟨j,hj,rfl⟩ := List.mem_mapIdx.mp hvalue
      rw [ArrayRef.len,cells_aggregateValuesToColumn,List.length_map]
      exact hshaped.length_valueColumn hj
  have hcolumns : groupBy.mapIdx (fun index column =>
      groupValuesToColumn column (groups.map fun group => group.keys[index]?)) ≠ [] := by
    intro hnil
    exact hne (List.mapIdx_eq_nil_iff.mp hnil)
  refine ⟨_,tryNew_ok (List.append_ne_nil_of_left_ne_nil hcolumns _) hlen,
    ⟨rfl,fun k hk => key_fields hshaped hk _,?_⟩⟩
  intro j hj
  refine ⟨aggregateValuesToColumn aggregates[j].display (valueColumn groups j),?_,
    cells_aggregateValuesToColumn _ _⟩
  rw [List.getElem?_append_right (by rw [List.length_mapIdx]; omega),List.length_mapIdx,Nat.add_sub_cancel_left,
    List.getElem?_mapIdx,List.getElem?_eq_getElem hj]
  rfl

theorem exists_lossless_iff {answer : Result (List RecordBatch)} (h : answer = .ok [batch]) :
    (∃ batch, answer = .ok [batch] ∧ Lossless groups groupBy batch) ↔ Lossless groups groupBy batch := by
  constructor
  · rintro ⟨other,hother,hlossless⟩
    rw [h] at hother
    cases hother
    exact hlossless
  · exact fun hlossless => ⟨batch,h,hlossless⟩

/-- The results are materialised as one batch, lossless exactly when no column holds values of two kinds. -/
theorem aggregateMetricsToBatches_lossless_iff {metrics : AggregateMetrics} (hbatches : metrics.outputBatches = none)
    (hne : groupBy ≠ []) (hshaped : Shaped groupBy aggregates metrics.groups) :
    (∃ batch, aggregateMetricsToBatches metrics groupBy aggregates = .ok [batch] ∧
      Lossless metrics.groups groupBy batch) ↔ ColumnsUniform metrics.groups groupBy aggregates := by
  by_cases h : CountSumShaped metrics.groups aggregates
  · obtain ⟨batch,hbatch,hstores⟩ := countSumMetricsToBatch_stores hshaped h
    have hresult : aggregateMetricsToBatches metrics groupBy aggregates = .ok [batch] := by
      unfold aggregateMetricsToBatches
      rw [hbatches]
      rw [if_neg hne,hbatch]
      rfl
    rw [exists_lossless_iff hresult,hstores.lossless_iff hshaped]
    have htwo : aggregates.length = 2 := length_of_isCountSum h.1
    constructor
    · rintro ⟨hkeys,hvalues⟩
      exact ⟨hkeys,fun _ => hvalues 1 (by omega),fun hnot => absurd h hnot⟩
    · intro huniform
      refine ⟨huniform.keys,fun j hj => ?_⟩
      rw [htwo] at hj
      match j,hj with
      | 0,_ =>
        intro v hv
        obtain ⟨result,hresult,rfl⟩ := List.mem_map.mp hv
        obtain ⟨group,hgroup,hget⟩ := List.mem_filterMap.mp hresult
        obtain ⟨n,hn⟩ := countSumValues_count (h.2 group hgroup) hget
        rw [hn]
        exact .inr rfl
      | 1,_ => exact huniform.sums h
  · obtain ⟨batch,hbatch,hstores⟩ := tryNew_stores hne hshaped
    have hresult : aggregateMetricsToBatches metrics groupBy aggregates = .ok [batch] := by
      unfold aggregateMetricsToBatches
      rw [hbatches]
      rw [if_neg hne,countSumMetricsToBatch_none h]
      show (RecordBatch.tryNew _).map _ = _
      rw [hbatch]
      rfl
    rw [exists_lossless_iff hresult,hstores.lossless_iff hshaped]
    constructor
    · rintro ⟨hkeys,hvalues⟩
      exact ⟨hkeys,fun hsum => absurd hsum h,fun _ => hvalues⟩
    · exact fun huniform => ⟨huniform.keys,huniform.values h⟩

end Batch

section Collected
variable {ops : FloatOps} {groupBy : List String} {aggregates : List AggregateExpr}

/-- Every group of the map has a key for each column and an accumulator for each aggregate. -/
def MapShaped (groupBy : List String) (aggregates : List AggregateExpr) (groups : GroupMap) : Prop :=
  ∀ key group, groups.lookup key = some group →
    group.keys.length = groupBy.length ∧ group.accumulators.length = aggregates.length

theorem mapShaped_empty : MapShaped groupBy aggregates (∅ : GroupMap) := by
  intro key group h
  rw [AList.lookup_empty] at h
  cases h

theorem MapShaped.insert {groups : GroupMap} (h : MapShaped groupBy aggregates groups) {key : List GroupValue}
    {group : GroupState} (hkeys : group.keys.length = groupBy.length)
    (haccumulators : group.accumulators.length = aggregates.length) :
    MapShaped groupBy aggregates (groups.insert key group) := by
  intro k g hg
  by_cases hk : k = key
  · subst hk
    rw [AList.lookup_insert] at hg
    cases hg
    exact ⟨hkeys,haccumulators⟩
  · rw [AList.lookup_insert_ne hk] at hg
    exact h k g hg

theorem bind_eq_ok {α β : Type} {x : Result α} {f : α → Result β} {b : β} (h : x.bind f = .ok b) :
    ∃ a, x = .ok a ∧ f a = .ok b := except_bind_eq_ok.mp h

theorem map_eq_ok {α β : Type} {x : Result α} {f : α → β} {b : β} (h : x.map f = .ok b) :
    ∃ a, x = .ok a ∧ f a = b := except_map_eq_ok.mp h

theorem MapShaped.row {groups groups' : GroupMap} (h : MapShaped groupBy aggregates groups)
    {groupColumns : List (String × ArrayRef)} (hcolumns : groupColumns.length = groupBy.length)
    {aggregateColumns : List (Option ArrayRef)} (haggregates : aggregateColumns.length = aggregates.length)
    {row : ℕ} (hrow : collectGroupedAggregatesRow ops groupColumns aggregates aggregateColumns groups row =
      .ok groups') : MapShaped groupBy aggregates groups' := by
  obtain ⟨key,hkey,hrest⟩ := bind_eq_ok hrow
  obtain ⟨accumulators,haccumulators,rfl⟩ := map_eq_ok hrest
  have hlen := (mapM_ok_iff.mp haccumulators).length_eq
  have hgroup : ((groups.lookup key).getD ⟨key,aggregates.map .new⟩).keys.length = groupBy.length ∧
      ((groups.lookup key).getD ⟨key,aggregates.map .new⟩).accumulators.length = aggregates.length := by
    cases hold : groups.lookup key with
    | none => exact ⟨(mapM_ok_iff.mp hkey).length_eq.symm.trans hcolumns,List.length_map _⟩
    | some group => exact h key group hold
  refine h.insert hgroup.1 ?_
  rw [← hlen,List.length_zip,hgroup.2,haggregates,min_self]

theorem MapShaped.merge {groups part : GroupMap} (h : MapShaped groupBy aggregates groups)
    (hpart : MapShaped groupBy aggregates part) : MapShaped groupBy aggregates (mergeGroupMaps ops groups part) := by
  refine foldl_inv (fun _ groups => MapShaped groupBy aggregates groups) h ?_
  rintro seen ⟨key,other⟩ rest groups hpairs hgroups
  have hother := hpart key other (Map.mem_toPairs.mp (by rw [hpairs]; simp))
  dsimp only
  split
  · exact hgroups.insert hother.1 hother.2
  · next group hgroup =>
    have hold := hgroups key group hgroup
    refine hgroups.insert hold.1 ?_
    rw [List.length_zipWith,hold.2,hother.2,min_self]

theorem collectGroupedAggregatesBatch_shaped {batch : RecordBatch} {groups : GroupMap}
    (h : collectGroupedAggregatesBatch ops batch groupBy aggregates = .ok groups) :
    MapShaped groupBy aggregates groups := by
  obtain ⟨groupColumns,hcolumns,hrest⟩ := bind_eq_ok h
  obtain ⟨aggregateColumns,haggregates,hrows⟩ := bind_eq_ok hrest
  exact foldlM_ok_inv (fun _ groups => MapShaped groupBy aggregates groups) mapShaped_empty
    (fun _ _ _ _ hinv hrow => hinv.row (mapM_ok_iff.mp hcolumns).length_eq.symm
      (mapM_ok_iff.mp haggregates).length_eq.symm hrow) hrows

theorem collectGroupedAggregatesGeneric_shaped {batches : List RecordBatch} {metrics : AggregateMetrics}
    (h : collectGroupedAggregatesGeneric ops batches groupBy aggregates = .ok metrics) :
    metrics.outputBatches = none ∧ Shaped groupBy aggregates metrics.groups := by
  obtain ⟨groups,hgroups,rfl⟩ := map_eq_ok h
  have hmap : MapShaped groupBy aggregates groups := by
    refine foldlM_ok_inv (fun _ groups => MapShaped groupBy aggregates groups) mapShaped_empty ?_ hgroups
    intro seen batch groups groups' hinv hstep
    obtain ⟨part,hpart,rfl⟩ := map_eq_ok hstep
    exact hinv.merge (collectGroupedAggregatesBatch_shaped hpart)
  refine ⟨rfl,fun result hresult => ?_⟩
  have hmem := (List.perm_insertionSort _ _).mem_iff.mp hresult
  obtain ⟨⟨key,group⟩,hpair,rfl⟩ := List.mem_map.mp hmem
  obtain ⟨hkeys,haccumulators⟩ := hmap key group (Map.mem_toPairs.mp hpair)
  exact ⟨hkeys,(List.length_map _).trans haccumulators⟩

end Collected

section Sample

/-- The smallest text of two groups of three keys; one group has no text. -/
def textResults (first second : Option String) : AggregateMetrics where
  groups := [⟨[.int64 (some 1),.int64 (some 1),.int64 none],[⟨.min "s",first.elim (.int64 none) (.utf8 ∘ some)⟩]⟩,
    ⟨[.int64 (some 2),.int64 (some 1),.int64 none],[⟨.min "s",second.elim (.int64 none) (.utf8 ∘ some)⟩]⟩]

theorem aggregateMetricsToBatches_textResults :
    ∃ batch, aggregateMetricsToBatches (textResults (some "x") none) ["a","b","c"] [.min "s"] = .ok [batch] ∧
      Lossless (textResults (some "x") none).groups ["a","b","c"] batch := by
  have hshaped : Shaped ["a","b","c"] [.min "s"] (textResults (some "x") none).groups := by
    unfold Shaped
    decide
  refine (aggregateMetricsToBatches_lossless_iff rfl (List.cons_ne_nil _ _) hshaped).mpr ⟨?_,?_,?_⟩
  · decide
  · exact fun hsum => by cases hsum.1
  · intro _
    decide

def textBatch : RecordBatch where
  columns := [⟨"a",.int64 [some 1,some 2]⟩,⟨"b",.int64 [some 1,some 1]⟩,⟨"c",.int64 [none,none]⟩,
    ⟨"s",.utf8 [none,some "x"]⟩]
  numRows := 2
  lengths := by decide

theorem collectGroupedAggregatesGeneric_shaped_text : Shaped ["a","b","c"] [.min "s"] (textResults none (some "x")).groups :=
  (collectGroupedAggregatesGeneric_shaped
    (show collectGroupedAggregatesGeneric ⟨fun x _ => x,fun x _ => x,0,0,0,0⟩ [textBatch] ["a","b","c"] [.min "s"] =
      .ok (textResults none (some "x")) from rfl)).2

/-- The group without a text comes first, and the text of the other group is lost. -/
theorem textBatch_loses_text : groupedPath false ["a","b","c"] [.min "s"] = .generic ∧
    (∀ ops, collectGroupedAggregatesGeneric ops [textBatch] ["a","b","c"] [.min "s"] =
      .ok (textResults none (some "x"))) ∧
    ¬∃ batch, aggregateMetricsToBatches (textResults none (some "x")) ["a","b","c"] [.min "s"] = .ok [batch] ∧
      Lossless (textResults none (some "x")).groups ["a","b","c"] batch := by
  refine ⟨rfl,fun _ => rfl,?_⟩
  rintro ⟨batch,hbatch,hlossless⟩
  have hcell := hlossless.values 1 _ 0 _ rfl rfl
  cases hbatch
  revert hcell
  decide

end Sample

end Dodam.Execution.Aggregate
