import Dodam.Execution.Filter.Expr
import Dodam.Storage.Table

/-! # Partition columns of a fragment

The partition values of a fragment are attached to its batches as columns of text, except those
that the file has a column of the same name for.
-/
namespace Dodam.Execution
open Foundation Storage

section Attach
variable {γ : Type*}

def applyProjection (batch : Batch γ) : Projection → Result (Batch γ)
  | .all => .ok batch
  | .columns columns => (columns.mapM (columnIndex batch.names)).map fun indices =>
      { batch with columns := indices.filterMap fun index => batch.columns[index]? }

def projectionWithoutPartitionColumns (projection : Projection) (partitionValues : List (String × String)) :
    Projection :=
  match projection with
  | .all => .all
  | .columns columns => .columns (columns.filter fun column => column ∉ partitionValues.map Prod.fst)

/-- A column that holds the text of the directory in every row. -/
def partitionColumn (numRows : ℕ) (value : String) : BatchColumn γ :=
  .stored (.utf8 (List.replicate numRows (some value)))

def addPartitionColumns (batch : Batch γ) (projection : Projection) (partitionValues : List (String × String)) :
    Result (Batch γ) :=
  if partitionValues = [] then .ok batch
  else
    let added := partitionValues.filter fun partition => partition.1 ∉ batch.names
    let columns := added.map fun partition => (partition.1,partitionColumn batch.numRows partition.2)
    applyProjection { batch with columns := batch.columns ++ columns } projection

end Attach

/-- A column name may stand for the name of a field. -/
def Resolves (field column : String) : Prop :=
  physicalSameColumn field column = true ∨
    ∃ qualifier unqualified, splitOnce '.' column.toList = some (qualifier,unqualified) ∧ field.toList = unqualified

/-- The column is the fragment's own partition column: no field of the file and no other partition
goes by that name. -/
def OwnPartitionColumn {γ : Type*} (column : String) (partitionValues : List (String × String)) (batch : Batch γ) :
    Prop :=
  ∃ value, (column,value) ∈ partitionValues ∧
    (∀ partition ∈ partitionValues, Resolves partition.1 column → partition = (column,value)) ∧
    ∀ name ∈ batch.names, ¬Resolves name column

/-- The name reads the text of the fragment wherever it can be read. -/
def ReadsOwnPartition {γ : Type*} (column : String) (partitionValues : List (String × String)) (attached : Batch γ) :
    Prop :=
  ∀ index, columnIndex attached.names column = .ok index → ∃ value, partitionValues.lookup column = some value ∧
    attached.columns[index]? = some (column,partitionColumn attached.numRows value)

theorem sameSegments_self (column : List Char) : sameSegments column column = true := by
  simp [sameSegments]

theorem resolves_self (column : String) : Resolves column column := by
  refine .inl ?_
  unfold physicalSameColumn
  cases column.toList.length with
  | zero => exact sameSegments_self _
  | succ depth =>
    rw [physicalSameColumnTo]
    split
    · rw [sameSegments_self,Bool.or_true]
    · exact sameSegments_self _

theorem columnIndex_resolves {names : List String} {column : String} {index : ℕ}
    (h : columnIndex names column = .ok index) : ∃ field, names[index]? = some field ∧ Resolves field column := by
  unfold columnIndex at h
  cases hfirst : names.findIdx? fun name => physicalSameColumn name column with
  | some i =>
    rw [hfirst] at h
    cases h
    obtain ⟨hlt,hsame,-⟩ := List.findIdx?_eq_some_iff_getElem.mp hfirst
    exact ⟨names[index],List.getElem?_eq_getElem hlt,.inl hsame⟩
  | none =>
    rw [hfirst] at h
    generalize hsecond : (splitOnce '.' column.toList).bind _ = second at h
    cases second with
    | none => cases h
    | some i =>
      cases h
      obtain ⟨⟨qualifier,unqualified⟩,hsplit,hi⟩ := Option.bind_eq_some_iff.mp hsecond
      obtain ⟨hlt,hsame,-⟩ := List.findIdx?_eq_some_iff_getElem.mp hi
      exact ⟨names[index],List.getElem?_eq_getElem hlt,.inr ⟨qualifier,unqualified,hsplit,of_decide_eq_true hsame⟩⟩

section Own
variable {γ : Type*} {batch attached : Batch γ} {projection : Projection} {partitionValues : List (String × String)}

theorem addPartitionColumns_columns (h : addPartitionColumns batch projection partitionValues = .ok attached) :
    attached.numRows = batch.numRows ∧ ∀ c ∈ attached.columns, c ∈ batch.columns ∨
      ∃ partition ∈ partitionValues, c = (partition.1,partitionColumn batch.numRows partition.2) := by
  unfold addPartitionColumns at h
  split_ifs at h with hempty
  · cases h
    exact ⟨rfl,fun c hc => .inl hc⟩
  · have hadded : ∀ c ∈ batch.columns ++ (partitionValues.filter fun partition => partition.1 ∉ batch.names).map
        (fun partition => (partition.1,partitionColumn batch.numRows partition.2)), c ∈ batch.columns ∨
          ∃ partition ∈ partitionValues, c = (partition.1,partitionColumn batch.numRows partition.2) := by
      intro c hc
      rcases List.mem_append.mp hc with hc | hc
      · exact .inl hc
      · obtain ⟨partition,hpartition,rfl⟩ := List.mem_map.mp hc
        exact .inr ⟨partition,(List.mem_filter.mp hpartition).1,rfl⟩
    cases projection with
    | all =>
      cases h
      exact ⟨rfl,hadded⟩
    | columns columns =>
      obtain ⟨indices,-,rfl⟩ := map_eq_ok_iff.mp h
      refine ⟨rfl,fun c hc => ?_⟩
      obtain ⟨index,-,hindex⟩ := List.mem_filterMap.mp hc
      exact hadded c (List.mem_of_getElem? hindex)

theorem OwnPartitionColumn.reads {column : String} (h : OwnPartitionColumn column partitionValues batch)
    (hattached : addPartitionColumns batch projection partitionValues = .ok attached) :
    ReadsOwnPartition column partitionValues attached := by
  intro index hindex
  obtain ⟨value,hmem,hother,hfile⟩ := h
  obtain ⟨hrows,hcolumns⟩ := addPartitionColumns_columns hattached
  obtain ⟨field,hfield,hresolves⟩ := columnIndex_resolves hindex
  refine ⟨value,?_,?_⟩
  · have hsome : (partitionValues.lookup column).isSome :=
      List.lookup_isSome_iff.mpr ⟨(column,value),hmem,beq_self_eq_true column⟩
    obtain ⟨found,hfound⟩ := Option.isSome_iff_exists.mp hsome
    obtain ⟨before,after,hsplit,-⟩ := List.lookup_eq_some_iff.mp hfound
    have hin : (column,found) ∈ partitionValues := hsplit ▸ List.mem_append_right _ List.mem_cons_self
    cases hother _ hin (resolves_self column)
    exact hfound
  · rw [Batch.names,List.getElem?_map] at hfield
    obtain ⟨⟨name,c⟩,hc,rfl⟩ := Option.map_eq_some_iff.mp hfield
    rw [hc]
    rcases hcolumns _ (List.mem_of_getElem? hc) with hmem | ⟨partition,hpartition,heq⟩
    · exact absurd hresolves (hfile _ (List.mem_map_of_mem hmem))
    · cases heq
      rw [hother partition hpartition hresolves,hrows]

end Own

end Dodam.Execution
