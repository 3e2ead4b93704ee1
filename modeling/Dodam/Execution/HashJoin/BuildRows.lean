import Dodam.Execution.HashJoin.Build
import Dodam.Foundation.Bitmap
import Dodam.Foundation.Fold
import Mathlib.Data.List.Sort
import Mathlib.Data.List.TakeWhile

/-! # Materialising build rows

The rows that a list of build-row references names are put together in one of four ways: as a
slice of a batch, column by column, by row indices into the batches joined end to end, or run by
run.
-/
namespace Dodam.Execution
open Foundation

/-- The column types that are gathered value by value, and the others by name. -/
inductive ColumnType
  | int32
  | int64
  | uint32
  | uint64
  | float64
  | utf8
  | dictionaryInt32Utf8
  | boolean
  | other (name : String)
deriving DecidableEq

structure TypedBatch (ν : Type) where
  types : List ColumnType
  rows : List (List (Option ν))
  width : ∀ row ∈ rows, row.length = types.length

open TypedBatch

structure BuildBatches (ν : Type) where
  batches : List (TypedBatch ν)
  schema : List ColumnType
  ne_nil : batches ≠ []
  types_eq : ∀ batch ∈ batches, batch.types = schema

def outOfRangeMessage : String := "hash join build row reference is out of range"

def buildRowsMessage : String := "hash join build side currently supports up to u32::MAX rows"

section Batches
variable {ν : Type}

/-- `RecordBatch::try_new` -/
def TypedBatch.tryNew (types : List ColumnType) (rows : List (List (Option ν))) : Result (TypedBatch ν) :=
  if h : ∀ row ∈ rows, row.length = types.length then .ok ⟨types,rows,h⟩ else .error (.err .arrow)

def TypedBatch.slice (batch : TypedBatch ν) (start len : ℕ) : Result (TypedBatch ν) :=
  if start + len ≤ batch.rows.length then
    .ok ⟨batch.types,(batch.rows.drop start).take len,fun row hrow =>
      batch.width row (List.mem_of_mem_drop (List.mem_of_mem_take hrow))⟩
  else .error .panicked

/-- `record_batch_with_row_count`, without columns. -/
def recordBatchWithRowCount (rows : ℕ) : Result (TypedBatch ν) := tryNew [] (List.replicate rows [])

def projectBatchColumnsByIndices (batch : TypedBatch ν) (columns : Option (List ℕ)) : Result (TypedBatch ν) :=
  match columns with
  | none => .ok batch
  | some indices =>
    if indices = [] then recordBatchWithRowCount batch.rows.length
    else if indices = List.range batch.types.length then .ok batch
    else
      match indices.mapM (batch.types[·]?) with
      | none => .error (.err .arrow)
      | some types => tryNew types (batch.rows.map fun row => indices.map fun index => row.getD index none)

/-- The start and the length of indices one after the other. -/
def contiguousIndexRange : List ℕ → Option (ℕ × ℕ)
  | [] => none
  | first :: rest =>
    (rest.foldlM (fun expected index =>
      if expected + 1 < 2 ^ 32 ∧ index = expected + 1 then some (expected + 1) else none) first).map fun _ =>
        (first,rest.length + 1)

def takeRecordBatch (batch : TypedBatch ν) (indices : List ℕ) : Result (TypedBatch ν) := do
  let rows ← indices.mapM fun index =>
    match batch.rows[index]? with
    | none => .error .panicked
    | some row => .ok row
  tryNew batch.types rows

def takeRecordBatchByIndices (batch : TypedBatch ν) (indices : List ℕ) : Result (TypedBatch ν) :=
  if batch.types.length = 0 then recordBatchWithRowCount indices.length
  else
    match contiguousIndexRange indices with
    | some (start,len) => batch.slice start len
    | none => takeRecordBatch batch indices

/-- `concat_batches` -/
def concatTypedBatches (schema : List ColumnType) (batches : List (TypedBatch ν)) : Result (TypedBatch ν) :=
  if schema = [] then recordBatchWithRowCount (batches.map fun batch => batch.rows.length).sum
  else if ∀ batch ∈ batches, batch.types = schema then tryNew schema (batches.flatMap rows)
  else .error (.err .arrow)

end Batches

section Refs

/-- The batch, the first row and the length of references one after the other. -/
def contiguousBuildRefRange : List BuildRowRef → Option (ℕ × ℕ × ℕ)
  | [] => none
  | first :: rest =>
    (rest.foldlM (fun expected rowRef =>
      if rowRef.batch = first.batch ∧ expected + 1 < 2 ^ 32 ∧ rowRef.row = expected + 1 then some (expected + 1)
      else none) first.row).map fun _ => (first.batch,first.row,rest.length + 1)

/-- More than eight runs of references into one batch. -/
def runCountExceeds : ℕ → Option ℕ → List BuildRowRef → Bool
  | _,_,[] => false
  | runCount,previous,rowRef :: refs =>
    let runCount := if previous ≠ some rowRef.batch then runCount + 1 else runCount
    if 8 < runCount then true else runCountExceeds runCount (some rowRef.batch) refs

def shouldTakeBuildRefsViaGlobalIndices (refs : List BuildRowRef) : Bool := runCountExceeds 0 none refs

end Refs

section Take
variable {ν : Type} (build : BuildBatches ν) (refs : List BuildRowRef) (columns : Option (List ℕ))

def BuildBatches.batch (index : ℕ) : Result (TypedBatch ν) :=
  match build.batches[index]? with
  | none => unsupportedSql outOfRangeMessage
  | some batch => .ok batch

/-- The arrays of one column, which must be of the expected type in every batch. -/
def buildColumnArrays (columnIndex : ℕ) (type : ColumnType) : Result (List (List (Option ν))) :=
  build.batches.mapM fun batch =>
    match batch.types[columnIndex]? with
    | none => .error .panicked
    | some found =>
      if found = type then .ok (batch.rows.map fun row => row.getD columnIndex none)
      else unsupportedSql "hash join build column type changed across batches"

def gatherCells (arrays : List (List (Option ν))) : Result (List (Option ν)) :=
  refs.mapM fun rowRef =>
    match arrays[rowRef.batch]? with
    | none => unsupportedSql outOfRangeMessage
    | some array =>
      match array[rowRef.row]? with
      | none => .error .panicked
      | some cell => .ok cell

/-- The types with a builder of their own are gathered alike; dictionaries only within a single batch. -/
def tryGatherBuildColumn (columnIndex : ℕ) (type : ColumnType) : Result (Option (List (Option ν))) :=
  match type with
  | .other _ => .ok none
  | .dictionaryInt32Utf8 => do
    let arrays ← buildColumnArrays build columnIndex type
    if arrays.length ≠ 1 ∨ refs.any fun rowRef => rowRef.batch ≠ 0 then return none
    return some (← gatherCells refs arrays)
  | .int32 | .int64 | .uint32 | .uint64 | .float64 | .utf8 | .boolean => do
    let arrays ← buildColumnArrays build columnIndex type
    return some (← gatherCells refs arrays)

/-- The columns one after the other, until one is not gathered. -/
def gatherColumns : List ℕ → Result (Option (List (ColumnType × List (Option ν))))
  | [] => .ok (some [])
  | columnIndex :: rest =>
    match build.schema[columnIndex]? with
    | none => .error .panicked
    | some type => do
      match ← tryGatherBuildColumn build refs columnIndex type with
      | none => return none
      | some cells => return (← gatherColumns rest).map fun gathered => (type,cells) :: gathered

def tryTakeBuildRowRefsDirectIndices : Result (Option (TypedBatch ν)) :=
  if shouldTakeBuildRefsViaGlobalIndices refs = false then .ok none
  else
    let columnIndices := columns.getD (List.range build.schema.length)
    if columnIndices = [] then (recordBatchWithRowCount refs.length).map some
    else do
      match ← gatherColumns build refs columnIndices with
      | none => return none
      | some gathered =>
        (tryNew (gathered.map Prod.fst)
          ((List.range refs.length).map fun k => gathered.map fun column => column.2.getD k none)).map some

/-- The batches in use, without repetitions and in order. -/
def referencedBatches : List ℕ :=
  (refs.foldl (fun found rowRef => if rowRef.batch ∈ found then found else found ++ [rowRef.batch]) []).insertionSort (· ≤ ·)

/-- One more batch behind the others, which begins where they end. -/
def appendGlobal (state : List (TypedBatch ν) × List (ℕ × ℕ) × ℕ) (index : ℕ) :
    Result (List (TypedBatch ν) × List (ℕ × ℕ) × ℕ) := do
  let (projectedBatches,offsets,offset) := state
  let batch ← build.batch index
  let projected ← projectBatchColumnsByIndices batch columns
  let rows ← u32TryFrom projected.rows.length buildRowsMessage
  if offset + rows < 2 ^ 32 then return (projectedBatches ++ [projected],offsets ++ [(index,offset)],offset + rows)
  else unsupportedSql buildRowsMessage

def globalIndex (offsets : List (ℕ × ℕ)) (rowRef : BuildRowRef) : Result ℕ :=
  match offsets.lookup rowRef.batch with
  | none => unsupportedSql outOfRangeMessage
  | some offset => if offset + rowRef.row < 2 ^ 32 then .ok (offset + rowRef.row) else unsupportedSql outOfRangeMessage

def concatProjected (projectedBatches : List (TypedBatch ν)) : Result (TypedBatch ν) :=
  let schema := (projectedBatches.head?.map types).getD build.schema
  match projectedBatches with
  | [batch] => .ok batch
  | _ =>
    if schema = [] then recordBatchWithRowCount (projectedBatches.map fun batch => batch.rows.length).sum
    else concatTypedBatches schema projectedBatches

def takeBuildRowRefsViaGlobalIndicesIndices : Result (TypedBatch ν) := do
  let (projectedBatches,offsets,_) ← (referencedBatches refs).foldlM (appendGlobal build columns) ([],[],0)
  let concatenated ← concatProjected build projectedBatches
  let indices ← refs.mapM (globalIndex offsets)
  takeRecordBatchByIndices concatenated indices

/-- The runs of references into one batch, each taken by itself. -/
def takeRuns : List BuildRowRef → Result (List (TypedBatch ν))
  | [] => .ok []
  | first :: rest => do
    let run := first :: rest.takeWhile fun rowRef => rowRef.batch = first.batch
    let batch ← build.batch first.batch
    let projected ← projectBatchColumnsByIndices batch columns
    let chunk ← takeRecordBatchByIndices projected (run.map BuildRowRef.row)
    return chunk :: (← takeRuns (rest.dropWhile fun rowRef => rowRef.batch = first.batch))
termination_by refs => refs.length
decreasing_by
  have hlength := (List.dropWhile_sublist (l := rest) fun rowRef => decide (rowRef.batch = first.batch)).length_le
  simp only [List.length_cons]
  omega

def takeBuildRowRefsProjectedIndices : Result (TypedBatch ν) :=
  match contiguousBuildRefRange refs with
  | some (batchIndex,start,len) => do
    let batch ← build.batch batchIndex
    let projected ← projectBatchColumnsByIndices batch columns
    projected.slice start len
  | none => do
    match ← tryTakeBuildRowRefsDirectIndices build refs columns with
    | some batch => return batch
    | none =>
      if shouldTakeBuildRefsViaGlobalIndices refs then takeBuildRowRefsViaGlobalIndicesIndices build refs columns
      else
        match ← takeRuns build columns refs with
        | [chunk] => return chunk
        | chunks => concatTypedBatches ((chunks.head?.map types).getD build.schema) chunks

end Take

def BuildBatches.row? {ν : Type} (build : BuildBatches ν) (rowRef : BuildRowRef) : Option (List (Option ν)) :=
  build.batches[rowRef.batch]?.bind fun batch => batch.rows[rowRef.row]?

def BuildBatches.rowAt {ν : Type} (build : BuildBatches ν) (rowRef : BuildRowRef) : List (Option ν) :=
  (build.row? rowRef).getD []

def projectRow {ν : Type} (columns : Option (List ℕ)) (row : List (Option ν)) : List (Option ν) :=
  match columns with
  | none => row
  | some indices => indices.map fun index => row.getD index none

def projectTypes (schema : List ColumnType) (columns : Option (List ℕ)) : List ColumnType :=
  match columns with
  | none => schema
  | some indices => indices.map fun index => schema.getD index (.other "")

def referencedRows {ν : Type} (build : BuildBatches ν) (refs : List BuildRowRef) : ℕ :=
  ((referencedBatches refs).map fun index => (build.batches[index]?.map fun batch => batch.rows.length).getD 0).sum

section Batches
variable {ν : Type} {batch : TypedBatch ν} {columns : Option (List ℕ)}

theorem tryNew_eq {types : List ColumnType} {rows : List (List (Option ν))} (h : ∀ row ∈ rows, row.length = types.length) :
    tryNew types rows = .ok ⟨types,rows,h⟩ := dif_pos h

theorem recordBatchWithRowCount_eq (n : ℕ) : ∃ out : TypedBatch ν, recordBatchWithRowCount n = .ok out ∧ out.types = [] ∧
    out.rows = List.replicate n [] :=
  ⟨_,tryNew_eq fun _ hrow => congrArg List.length (List.eq_of_mem_replicate hrow),rfl,rfl⟩

theorem rows_of_no_types {batch : TypedBatch ν} (h : batch.types = []) : batch.rows = List.replicate batch.rows.length [] := by
  refine List.eq_replicate_iff.mpr ⟨rfl,fun row hrow => List.eq_nil_of_length_eq_zero ?_⟩
  rw [batch.width row hrow,h,List.length_nil]

def ValidColumns (schema : List ColumnType) (columns : Option (List ℕ)) : Prop :=
  ∀ indices, columns = some indices → ∀ index ∈ indices, index < schema.length

variable (batch columns) in
theorem projectBatchColumnsByIndices_eq (h : ValidColumns batch.types columns) : ∃ out,
    projectBatchColumnsByIndices batch columns = .ok out ∧ out.types = projectTypes batch.types columns ∧
      out.rows = batch.rows.map (projectRow columns) := by
  cases columns with
  | none => exact ⟨batch,rfl,rfl,(List.map_id _).symm⟩
  | some indices =>
    unfold projectBatchColumnsByIndices
    dsimp only
    split_ifs with hempty hall
    · obtain ⟨out,hout,htypes,hrows⟩ := recordBatchWithRowCount_eq (ν := ν) batch.rows.length
      subst hempty
      refine ⟨out,hout,htypes,hrows.trans ?_⟩
      exact List.map_const'.symm
    · refine ⟨batch,rfl,?_,?_⟩
      · rw [hall,projectTypes,map_range_getD]
      · rw [hall]
        refine (List.map_id _).symm.trans (List.map_congr_left fun row hrow => ?_)
        rw [projectRow,← batch.width row hrow,map_range_getD]
        rfl
    · have htypes : indices.mapM (batch.types[·]?) = some (projectTypes batch.types (some indices)) := by
        refine mapM_eq_some_map fun index hindex => ?_
        have hlt := h indices rfl index hindex
        rw [List.getElem?_eq_getElem hlt,List.getD_eq_getElem _ _ hlt]
      rw [htypes]
      refine ⟨_,tryNew_eq ?_,rfl,rfl⟩
      intro row hrow
      obtain ⟨row,-,rfl⟩ := List.mem_map.mp hrow
      simp [projectTypes]

theorem contiguousIndexRange_eq {indices : List ℕ} {start len : ℕ} (h : contiguousIndexRange indices = some (start,len)) :
    indices = List.range' start len := by
  have hrun : ∀ (rest : List ℕ) (first last : ℕ), rest.foldlM (fun expected index =>
      if expected + 1 < 2 ^ 32 ∧ index = expected + 1 then some (expected + 1) else none) first = some last →
        rest = List.range' (first + 1) rest.length := by
    intro rest
    induction rest with
    | nil => exact fun _ _ _ => rfl
    | cons index rest ih =>
      intro first last h
      obtain ⟨next,hnext,h⟩ := Option.bind_eq_some_iff.mp h
      dsimp only at hnext
      split_ifs at hnext with hstep
      cases hnext
      rw [List.length_cons,List.range'_succ,← ih _ last h,hstep.2]
  cases indices with
  | nil => cases h
  | cons first rest =>
    obtain ⟨last,hlast,heq⟩ := Option.map_eq_some_iff.mp h
    rw [← (Prod.mk.inj heq).1,← (Prod.mk.inj heq).2,List.range'_succ,← hrun rest first last hlast]

theorem slice_eq {start len : ℕ} (h : start + len ≤ batch.rows.length) : ∃ out, batch.slice start len = .ok out ∧
    out.types = batch.types ∧ out.rows.map some = (List.range' start len).map (batch.rows[·]?) := by
  unfold slice
  rw [if_pos h]
  refine ⟨_,rfl,rfl,?_⟩
  apply List.ext_getElem?
  intro k
  rw [List.getElem?_map,List.getElem?_map,List.getElem?_take]
  split_ifs with hk
  · rw [List.getElem?_drop,List.getElem?_range' hk,Nat.one_mul]
    have hlt : start + k < batch.rows.length := by omega
    simp [List.getElem?_eq_getElem hlt]
  · rw [List.getElem?_eq_none (by simpa using Nat.not_lt.mp hk)]
    rfl

theorem takeRecordBatchByIndices_eq {indices : List ℕ} (h : ∀ index ∈ indices, index < batch.rows.length) : ∃ out,
    takeRecordBatchByIndices batch indices = .ok out ∧ out.types = batch.types ∧
      out.rows.map some = indices.map (batch.rows[·]?) := by
  unfold takeRecordBatchByIndices
  split_ifs with hempty
  · have htypes := List.eq_nil_of_length_eq_zero hempty
    obtain ⟨out,hout,hnone,hrows⟩ := recordBatchWithRowCount_eq (ν := ν) indices.length
    refine ⟨out,hout,hnone.trans htypes.symm,?_⟩
    rw [hrows,List.map_replicate,rows_of_no_types htypes]
    refine (List.map_const' (l := indices)).symm.trans (List.map_congr_left fun index hindex => ?_)
    rw [List.getElem?_replicate,if_pos (h index hindex)]
  · split
    · rename_i start len hrange
      have hindices := contiguousIndexRange_eq hrange
      rw [hindices]
      refine slice_eq ?_
      cases len with
      | zero =>
        rw [hindices] at hrange
        cases hrange
      | succ len =>
        have hlast := h (start + len) (by rw [hindices,List.mem_range'_1]; omega)
        omega
    · have htake : (indices.mapM fun index => match batch.rows[index]? with
          | none => (.error .panicked : Result (List (Option ν)))
          | some row => .ok row) = .ok (indices.map fun index => batch.rows.getD index []) := by
        refine mapM_eq_map fun index hindex => ?_
        rw [List.getElem?_eq_getElem (h index hindex),List.getD_eq_getElem _ _ (h index hindex)]
      unfold takeRecordBatch
      rw [htake,except_bind_ok]
      refine ⟨_,tryNew_eq ?_,rfl,?_⟩
      · intro row hrow
        obtain ⟨index,hindex,rfl⟩ := List.mem_map.mp hrow
        rw [List.getD_eq_getElem _ _ (h index hindex)]
        exact batch.width _ (List.getElem_mem _)
      · rw [List.map_map]
        refine List.map_congr_left fun index hindex => ?_
        rw [Function.comp_apply,List.getD_eq_getElem _ _ (h index hindex),List.getElem?_eq_getElem (h index hindex)]

theorem concatTypedBatches_eq {schema : List ColumnType} {batches : List (TypedBatch ν)}
    (h : ∀ batch ∈ batches, batch.types = schema) : ∃ out, concatTypedBatches schema batches = .ok out ∧
      out.types = schema ∧ out.rows = batches.flatMap rows := by
  unfold concatTypedBatches
  split_ifs with hempty
  · obtain ⟨out,hout,htypes,hrows⟩ := recordBatchWithRowCount_eq (ν := ν) (batches.map fun batch => batch.rows.length).sum
    refine ⟨out,hout,htypes.trans hempty.symm,hrows.trans ?_⟩
    refine (List.eq_replicate_iff.mpr ⟨List.length_flatMap,fun row hrow => ?_⟩).symm
    obtain ⟨batch,hbatch,hrow⟩ := List.mem_flatMap.mp hrow
    refine List.eq_nil_of_length_eq_zero ?_
    rw [batch.width row hrow,h batch hbatch,hempty,List.length_nil]
  · refine ⟨_,tryNew_eq ?_,rfl,rfl⟩
    intro row hrow
    obtain ⟨batch,hbatch,hrow⟩ := List.mem_flatMap.mp hrow
    rw [batch.width row hrow,h batch hbatch]

end Batches

section References
variable {ν : Type} {build : BuildBatches ν} {refs : List BuildRowRef} {columns : Option (List ℕ)}

def ValidRefs (build : BuildBatches ν) (refs : List BuildRowRef) : Prop := ∀ rowRef ∈ refs, (build.row? rowRef).isSome = true

theorem row_of_isSome {rowRef : BuildRowRef} (h : (build.row? rowRef).isSome = true) : ∃ batch,
    build.batches[rowRef.batch]? = some batch ∧ batch.types = build.schema ∧ rowRef.row < batch.rows.length ∧
      batch.rows[rowRef.row]? = some (build.rowAt rowRef) := by
  obtain ⟨row,hrow⟩ := Option.isSome_iff_exists.mp h
  obtain ⟨batch,hbatch,hat⟩ := Option.bind_eq_some_iff.mp hrow
  refine ⟨batch,hbatch,build.types_eq batch (List.mem_of_getElem? hbatch),(List.getElem?_eq_some_iff.mp hat).1,?_⟩
  rw [BuildBatches.rowAt,hrow]
  exact hat

variable {index : ℕ}

theorem batch_eq_ok {batch : TypedBatch ν} (h : build.batches[index]? = some batch) :
    build.batch index = .ok batch := by
  unfold BuildBatches.batch
  rw [h]

theorem length_rowAt {rowRef : BuildRowRef} (h : (build.row? rowRef).isSome = true) :
    (build.rowAt rowRef).length = build.schema.length := by
  obtain ⟨batch,-,htypes,-,hrow⟩ := row_of_isSome h
  rw [batch.width _ (List.mem_of_getElem? hrow),htypes]

theorem rows_of_refs {batch : TypedBatch ν} (hbatch : build.batches[index]? = some batch)
    (hvalid : ValidRefs build refs) (hindex : ∀ rowRef ∈ refs, rowRef.batch = index) :
    (∀ row ∈ refs.map BuildRowRef.row, row < batch.rows.length) ∧
      (refs.map BuildRowRef.row).map (batch.rows[·]?) = refs.map fun rowRef => some (build.rowAt rowRef) := by
  have hrow : ∀ rowRef ∈ refs, rowRef.row < batch.rows.length ∧ batch.rows[rowRef.row]? = some (build.rowAt rowRef) := by
    intro rowRef hrowRef
    obtain ⟨batch',hbatch',-,hlt,hat⟩ := row_of_isSome (hvalid rowRef hrowRef)
    rw [hindex rowRef hrowRef] at hbatch'
    obtain rfl : batch = batch' := Option.some.inj (hbatch.symm.trans hbatch')
    exact ⟨hlt,hat⟩
  constructor
  · intro row hmem
    obtain ⟨rowRef,hrowRef,rfl⟩ := List.mem_map.mp hmem
    exact (hrow rowRef hrowRef).1
  · rw [List.map_map]
    exact List.map_congr_left fun rowRef hrowRef => (hrow rowRef hrowRef).2

theorem project_take {batch projected out : TypedBatch ν} (hbatch : build.batches[index]? = some batch)
    (hvalid : ValidRefs build refs) (hindex : ∀ rowRef ∈ refs, rowRef.batch = index)
    (hprojected : projected.rows = batch.rows.map (projectRow columns))
    (hout : out.rows.map some = (refs.map BuildRowRef.row).map (projected.rows[·]?)) :
    out.rows = refs.map fun rowRef => projectRow columns (build.rowAt rowRef) := by
  have hrows := (rows_of_refs hbatch hvalid hindex).2
  rw [List.map_map] at hrows hout
  have hsome : out.rows.map some = (refs.map fun rowRef => projectRow columns (build.rowAt rowRef)).map some := by
    rw [hout,List.map_map]
    refine List.map_congr_left fun rowRef hrowRef => ?_
    have hat : batch.rows[rowRef.row]? = some (build.rowAt rowRef) := List.map_inj_left.mp hrows rowRef hrowRef
    rw [Function.comp_apply,Function.comp_apply,hprojected,List.getElem?_map,hat]
    rfl
  exact List.map_injective_iff.mpr (Option.some_injective _) hsome

theorem contiguousBuildRefRange_eq {batchIndex start len : ℕ} (h : contiguousBuildRefRange refs = some (batchIndex,start,len)) :
    0 < len ∧ refs.map BuildRowRef.row = List.range' start len ∧ ∀ rowRef ∈ refs, rowRef.batch = batchIndex := by
  have hrun : ∀ (rest : List BuildRowRef) (first last : ℕ), rest.foldlM (fun expected (rowRef : BuildRowRef) =>
      if rowRef.batch = batchIndex ∧ expected + 1 < 2 ^ 32 ∧ rowRef.row = expected + 1 then some (expected + 1) else none)
        first = some last →
        rest.map BuildRowRef.row = List.range' (first + 1) rest.length ∧ ∀ rowRef ∈ rest, rowRef.batch = batchIndex := by
    intro rest
    induction rest with
    | nil => exact fun _ _ _ => ⟨rfl,List.forall_mem_nil _⟩
    | cons rowRef rest ih =>
      intro first last h
      obtain ⟨next,hnext,h⟩ := Option.bind_eq_some_iff.mp h
      dsimp only at hnext
      split_ifs at hnext with hstep
      cases hnext
      obtain ⟨hrows,hbatch⟩ := ih _ last h
      rw [List.map_cons,List.length_cons,List.range'_succ,hrows,hstep.2.2]
      exact ⟨rfl,List.forall_mem_cons.mpr ⟨hstep.1,hbatch⟩⟩
  cases refs with
  | nil => cases h
  | cons first rest =>
    obtain ⟨last,hlast,heq⟩ := Option.map_eq_some_iff.mp h
    simp only [Prod.mk.injEq] at heq
    obtain ⟨hbatch,hstart,hlen⟩ := heq
    rw [hbatch] at hlast
    obtain ⟨hrows,hall⟩ := hrun rest first.row last hlast
    rw [← hlen,List.map_cons,List.range'_succ,hrows,← hstart]
    exact ⟨Nat.succ_pos _,rfl,List.forall_mem_cons.mpr ⟨hbatch,hall⟩⟩

/-- One column of the referenced rows, or none where the type has no builder. -/
theorem tryGatherBuildColumn_eq (hvalid : ValidRefs build refs) {type : ColumnType}
    (htype : build.schema[index]? = some type) : tryGatherBuildColumn build refs index type = .ok none ∨
      tryGatherBuildColumn build refs index type = .ok (some (refs.map fun rowRef => (build.rowAt rowRef).getD index none)) := by
  have harrays : buildColumnArrays build index type =
      .ok (build.batches.map fun batch => batch.rows.map fun row => row.getD index none) := by
    refine mapM_eq_map fun batch hbatch => ?_
    rw [build.types_eq batch hbatch,htype]
    exact if_pos rfl
  have hcells : gatherCells refs (build.batches.map fun batch => batch.rows.map fun row => row.getD index none) =
      .ok (refs.map fun rowRef => (build.rowAt rowRef).getD index none) := by
    refine mapM_eq_map fun rowRef hrowRef => ?_
    obtain ⟨batch,hbatch,-,-,hrow⟩ := row_of_isSome (hvalid rowRef hrowRef)
    rw [List.getElem?_map,hbatch,Option.map_some]
    dsimp only
    rw [List.getElem?_map,hrow]
    rfl
  have hplain : (do
      let arrays ← buildColumnArrays build index type
      return some (← gatherCells refs arrays) : Result (Option (List (Option ν)))) =
        .ok (some (refs.map fun rowRef => (build.rowAt rowRef).getD index none)) := by
    rw [harrays,except_bind_ok,hcells]
    rfl
  cases type with
  | other name => exact .inl rfl
  | dictionaryInt32Utf8 =>
    unfold tryGatherBuildColumn
    rw [harrays,except_bind_ok]
    split_ifs
    · exact .inl rfl
    · rw [hcells]
      exact .inr rfl
  | int32 => exact .inr hplain
  | int64 => exact .inr hplain
  | uint32 => exact .inr hplain
  | uint64 => exact .inr hplain
  | float64 => exact .inr hplain
  | utf8 => exact .inr hplain
  | boolean => exact .inr hplain

theorem gatherColumns_eq (hvalid : ValidRefs build refs) {indices : List ℕ} (h : ∀ index ∈ indices, index < build.schema.length) :
    gatherColumns build refs indices = .ok none ∨ gatherColumns build refs indices =
      .ok (some (indices.map fun index =>
        (build.schema.getD index (.other ""),refs.map fun rowRef => (build.rowAt rowRef).getD index none))) := by
  induction indices with
  | nil => exact .inr rfl
  | cons index indices ih =>
    rw [List.forall_mem_cons] at h
    have htype := List.getElem?_eq_getElem h.1
    unfold gatherColumns
    rw [htype]
    dsimp only
    rcases tryGatherBuildColumn_eq hvalid htype with hcolumn | hcolumn <;> rw [hcolumn,except_bind_ok]
    · exact .inl rfl
    · dsimp only
      rcases ih h.2 with hrest | hrest <;> rw [hrest,except_bind_ok]
      · exact .inl rfl
      · refine .inr ?_
        rw [List.map_cons,List.getD_eq_getElem _ _ h.1]
        rfl

end References

section Paths
variable {ν : Type} {build : BuildBatches ν} {refs : List BuildRowRef} {columns : Option (List ℕ)}

/-- The referenced rows in their order, projected to the columns. -/
structure GivesRows (build : BuildBatches ν) (refs : List BuildRowRef) (columns : Option (List ℕ)) (out : TypedBatch ν) :
    Prop where
  types_eq : refs ≠ [] → out.types = projectTypes build.schema columns
  rows_eq : out.rows = refs.map fun rowRef => projectRow columns (build.rowAt rowRef)

theorem tryTakeBuildRowRefsDirectIndices_eq (hvalid : ValidRefs build refs) (hcolumns : ValidColumns build.schema columns) :
    tryTakeBuildRowRefsDirectIndices build refs columns = .ok none ∨
      ∃ out, tryTakeBuildRowRefsDirectIndices build refs columns = .ok (some out) ∧ GivesRows build refs columns out := by
  obtain ⟨indices,hindices⟩ : ∃ indices, indices = columns.getD (List.range build.schema.length) := ⟨_,rfl⟩
  have hlt : ∀ index ∈ indices, index < build.schema.length := by
    cases columns with
    | none =>
      rw [hindices]
      exact fun index hindex => List.mem_range.mp hindex
    | some given =>
      rw [hindices]
      exact hcolumns given rfl
  have htypes : projectTypes build.schema columns = indices.map fun index => build.schema.getD index (.other "") := by
    cases columns with
    | none =>
      rw [hindices]
      exact (map_range_getD _ _).symm
    | some given =>
      rw [hindices]
      rfl
  have hrow : ∀ rowRef ∈ refs, projectRow columns (build.rowAt rowRef) =
      indices.map fun index => (build.rowAt rowRef).getD index none := by
    intro rowRef hrowRef
    cases columns with
    | none =>
      rw [hindices,Option.getD_none,← length_rowAt (hvalid rowRef hrowRef),map_range_getD]
      rfl
    | some given =>
      rw [hindices]
      rfl
  unfold tryTakeBuildRowRefsDirectIndices
  rw [← hindices]
  dsimp only
  split_ifs with hruns hempty
  · exact .inl rfl
  · obtain ⟨out,hout,hnone,hrows⟩ := recordBatchWithRowCount_eq (ν := ν) refs.length
    refine .inr ⟨out,by rw [hout]; rfl,fun _ => ?_,?_⟩
    · rw [hnone,htypes,hempty,List.map_nil]
    · rw [hrows,← List.map_const']
      refine List.map_congr_left fun rowRef hrowRef => ?_
      rw [hrow rowRef hrowRef,hempty,List.map_nil]
  · rcases gatherColumns_eq hvalid hlt with hgather | hgather <;> rw [hgather,except_bind_ok]
    · exact .inl rfl
    · refine .inr ?_
      dsimp only
      rw [tryNew_eq (fun row hrow => by obtain ⟨k,-,rfl⟩ := List.mem_map.mp hrow; simp)]
      refine ⟨_,rfl,fun _ => ?_,?_⟩
      · exact List.map_map.trans htypes.symm
      · dsimp only
        apply List.ext_getElem (by simp)
        intro k hk hk'
        have hlen : k < refs.length := by simpa using hk
        rw [List.getElem_map,List.getElem_map,List.getElem_range,hrow _ (List.getElem_mem _),List.map_map]
        refine List.map_congr_left fun index _ => ?_
        rw [Function.comp_apply,List.getD_eq_getElem _ _ (by simpa using hlen),List.getElem_map]

theorem mem_referencedBatches {index : ℕ} : index ∈ referencedBatches refs ↔ ∃ rowRef ∈ refs, rowRef.batch = index := by
  have hfold : ∀ (refs : List BuildRowRef) (found : List ℕ), index ∈ refs.foldl (fun found rowRef =>
      if rowRef.batch ∈ found then found else found ++ [rowRef.batch]) found ↔
        index ∈ found ∨ ∃ rowRef ∈ refs, rowRef.batch = index := by
    intro refs
    induction refs with
    | nil => simp
    | cons rowRef refs ih =>
      intro found
      rw [List.foldl_cons,ih,List.exists_mem_cons_iff,← or_assoc]
      refine or_congr_left ?_
      split_ifs with hfound
      · exact ⟨.inl,fun h => h.elim id fun heq => heq ▸ hfound⟩
      · simp [eq_comm]
  rw [referencedBatches,List.mem_insertionSort,hfold]
  simp

/-- The batches that are joined so far, and where each begins. -/
structure GlobalInv (build : BuildBatches ν) (columns : Option (List ℕ)) (seen : List ℕ)
    (state : List (TypedBatch ν) × List (ℕ × ℕ) × ℕ) : Prop where
  keys : state.2.1.map Prod.fst = seen
  count : state.1.length = seen.length
  total : (state.1.flatMap rows).length = state.2.2
  small : state.2.2 < 2 ^ 32
  types : ∀ projected ∈ state.1, projected.types = projectTypes build.schema columns
  find : ∀ index ∈ seen, ∃ offset, state.2.1.lookup index = some offset ∧ ∀ batch, build.batches[index]? = some batch →
    ∀ row < batch.rows.length, (state.1.flatMap rows)[offset + row]? = batch.rows[row]?.map (projectRow columns)

theorem lookup_append_singleton {offsets : List (ℕ × ℕ)} {index offset key : ℕ} : (offsets ++ [(index,offset)]).lookup key =
    (offsets.lookup key).or (if key = index then some offset else none) := by
  rw [List.lookup_append]
  congr 1
  simp only [List.lookup_cons,List.lookup_nil]
  by_cases h : key = index
  · rw [if_pos h,beq_iff_eq.mpr h]
  · rw [if_neg h,beq_eq_false_iff_ne.mpr h]

variable {state : List (TypedBatch ν) × List (ℕ × ℕ) × ℕ}

/-- One more batch is joined, or the rows are too many. -/
theorem appendGlobal_eq (hcolumns : ValidColumns build.schema columns) {seen : List ℕ} (hinv : GlobalInv build columns seen state) {index : ℕ}
    {batch : TypedBatch ν} (hbatch : build.batches[index]? = some batch) :
    (∃ next, appendGlobal build columns state index = .ok next ∧ GlobalInv build columns (seen ++ [index]) next ∧
        next.2.2 = state.2.2 + batch.rows.length) ∨
      appendGlobal build columns state index = unsupportedSql buildRowsMessage ∧ 2 ^ 32 ≤ state.2.2 + batch.rows.length := by
  obtain ⟨projectedBatches,offsets,offset⟩ := state
  obtain ⟨hkeys,hcount,htotal,hsmall,htypes,hfind⟩ := hinv
  have hschema := build.types_eq batch (List.mem_of_getElem? hbatch)
  obtain ⟨projected,hprojected,hptypes,hprows⟩ := projectBatchColumnsByIndices_eq batch columns
    (hschema ▸ hcolumns)
  have hlength : projected.rows.length = batch.rows.length := by rw [hprows,List.length_map]
  dsimp only at *
  unfold appendGlobal
  dsimp only
  rw [batch_eq_ok hbatch,except_bind_ok,hprojected,except_bind_ok]
  by_cases hrows : projected.rows.length < 2 ^ 32
  · rw [u32TryFrom,if_pos hrows,except_bind_ok]
    split_ifs with hfits
    · refine .inl ⟨_,rfl,⟨?_,?_,?_,hfits,?_,?_⟩,by rw [hlength]⟩
      · rw [List.map_append,hkeys]
        rfl
      · rw [List.length_append,List.length_append,hcount]
        rfl
      · rw [List.flatMap_append,List.length_append,htotal]
        simp
      · intro p hp
        rcases List.mem_append.mp hp with hp | hp
        · exact htypes p hp
        · rw [List.mem_singleton.mp hp,hptypes,hschema]
      · intro key hkey
        dsimp only
        rw [lookup_append_singleton]
        by_cases hold : key ∈ seen
        · obtain ⟨o,ho,hat⟩ := hfind key hold
          refine ⟨o,by rw [ho]; rfl,fun batch' hbatch' row hrow => ?_⟩
          have hfound := hat batch' hbatch' row hrow
          have hlt : o + row < (projectedBatches.flatMap rows).length := by
            rw [List.getElem?_eq_getElem hrow,Option.map_some] at hfound
            exact (List.getElem?_eq_some_iff.mp hfound).1
          rw [List.flatMap_append,List.getElem?_append_left hlt]
          exact hfound
        · obtain rfl : key = index := by simpa [hold] using hkey
          have hnone : offsets.lookup key = none := by
            rw [List.lookup_eq_none_iff]
            intro entry hentry
            have hne : entry.1 ≠ key := fun heq => hold (hkeys ▸ heq ▸ List.mem_map_of_mem hentry)
            simpa using Ne.symm hne
          rw [hnone,if_pos rfl]
          refine ⟨offset,rfl,fun batch' hbatch' row hrow => ?_⟩
          obtain rfl : batch = batch' := Option.some.inj (hbatch.symm.trans hbatch')
          rw [List.flatMap_append,List.getElem?_append_right (by omega),htotal,Nat.add_sub_cancel_left]
          simp [hprows]
    · exact .inr ⟨rfl,by omega⟩
  · rw [u32TryFrom,if_neg hrows]
    exact .inr ⟨rfl,by omega⟩

theorem foldlM_appendGlobal (hcolumns : ValidColumns build.schema columns) {indices seen : List ℕ} (hinv : GlobalInv build columns seen state)
    (hindices : ∀ index ∈ indices, ∃ batch, build.batches[index]? = some batch) :
    (∃ final, indices.foldlM (appendGlobal build columns) state = .ok final ∧ GlobalInv build columns (seen ++ indices) final) ∨
      indices.foldlM (appendGlobal build columns) state = unsupportedSql buildRowsMessage ∧
        2 ^ 32 ≤ state.2.2 +
          (indices.map fun index => (build.batches[index]?.map fun batch => batch.rows.length).getD 0).sum := by
  induction indices generalizing seen state with
  | nil => exact .inl ⟨state,rfl,by rwa [List.append_nil]⟩
  | cons index indices ih =>
    rw [List.forall_mem_cons] at hindices
    obtain ⟨batch,hbatch⟩ := hindices.1
    rw [List.foldlM_cons,List.map_cons,List.sum_cons,hbatch,Option.map_some,Option.getD_some]
    rcases appendGlobal_eq hcolumns hinv hbatch with ⟨next,hnext,hinv',htotal⟩ | ⟨herror,hlarge⟩
    · rw [hnext,except_bind_ok]
      rcases ih hinv' hindices.2 with ⟨final,hfinal,hinv''⟩ | ⟨herror,hlarge⟩
      · exact .inl ⟨final,hfinal,by simpa using hinv''⟩
      · exact .inr ⟨herror,by omega⟩
    · rw [herror]
      exact .inr ⟨rfl,by omega⟩

variable (build) in
theorem concatProjected_eq {projectedBatches : List (TypedBatch ν)}
    (htypes : ∀ projected ∈ projectedBatches, projected.types = projectTypes build.schema columns) : ∃ concatenated,
      concatProjected build projectedBatches = .ok concatenated ∧
        (projectedBatches ≠ [] → concatenated.types = projectTypes build.schema columns) ∧
        concatenated.rows = projectedBatches.flatMap rows := by
  have hhead : projectedBatches ≠ [] → (projectedBatches.head?.map types).getD build.schema =
      projectTypes build.schema columns := by
    intro hne
    cases projectedBatches with
    | nil => exact absurd rfl hne
    | cons first rest => exact htypes first List.mem_cons_self
  have hsame : ∀ batch ∈ projectedBatches, batch.types = (projectedBatches.head?.map types).getD build.schema := by
    intro batch hbatch
    rw [hhead (List.ne_nil_of_mem hbatch)]
    exact htypes batch hbatch
  obtain ⟨out,hout,houttypes,hrows⟩ := concatTypedBatches_eq hsame
  unfold concatProjected
  dsimp only
  split
  · exact ⟨_,rfl,fun _ => htypes _ List.mem_cons_self,by simp⟩
  · refine ⟨out,?_,fun hne => houttypes.trans (hhead hne),hrows⟩
    rw [← hout]
    split_ifs with hempty
    · unfold concatTypedBatches
      rw [if_pos hempty]
    · rfl

theorem takeBuildRowRefsViaGlobalIndicesIndices_eq (hvalid : ValidRefs build refs) (hcolumns : ValidColumns build.schema columns) :
    (∃ out, takeBuildRowRefsViaGlobalIndicesIndices build refs columns = .ok out ∧ GivesRows build refs columns out) ∨
      takeBuildRowRefsViaGlobalIndicesIndices build refs columns = unsupportedSql buildRowsMessage ∧
        2 ^ 32 ≤ referencedRows build refs := by
  have hstart : GlobalInv build columns [] ([],[],0) :=
    ⟨rfl,rfl,rfl,Nat.two_pow_pos 32,List.forall_mem_nil _,List.forall_mem_nil _⟩
  have hbatches : ∀ index ∈ referencedBatches refs, ∃ batch, build.batches[index]? = some batch := by
    intro index hindex
    obtain ⟨rowRef,hrowRef,rfl⟩ := mem_referencedBatches.mp hindex
    obtain ⟨batch,hbatch,-⟩ := row_of_isSome (hvalid rowRef hrowRef)
    exact ⟨batch,hbatch⟩
  unfold takeBuildRowRefsViaGlobalIndicesIndices
  rcases foldlM_appendGlobal hcolumns hstart hbatches with ⟨⟨projectedBatches,offsets,total⟩,hfold,hinv⟩ | ⟨herror,hlarge⟩
  · refine .inl ?_
    rw [hfold,except_bind_ok]
    rw [List.nil_append] at hinv
    obtain ⟨-,hcount,htotal,hsmall,htypes,hfind⟩ := hinv
    dsimp only at hcount htotal hsmall htypes hfind ⊢
    obtain ⟨concatenated,hconcatenated,hctypes,hcrows⟩ := concatProjected_eq build htypes
    have hindex : ∀ rowRef ∈ refs, ∃ index, globalIndex offsets rowRef = .ok index ∧
        concatenated.rows[index]? = some (projectRow columns (build.rowAt rowRef)) := by
      intro rowRef hrowRef
      obtain ⟨batch,hbatch,-,hlt,hrow⟩ := row_of_isSome (hvalid rowRef hrowRef)
      obtain ⟨offset,hoffset,hat⟩ := hfind rowRef.batch (mem_referencedBatches.mpr ⟨rowRef,hrowRef,rfl⟩)
      have hfound := hat batch hbatch rowRef.row hlt
      rw [hrow,Option.map_some,← hcrows] at hfound
      have hin : offset + rowRef.row < 2 ^ 32 := by
        have := (List.getElem?_eq_some_iff.mp hfound).1
        rw [hcrows] at this
        omega
      refine ⟨offset + rowRef.row,?_,hfound⟩
      unfold globalIndex
      rw [hoffset]
      exact if_pos hin
    obtain ⟨indices,hindices⟩ := exists_mapM_ok fun rowRef hrowRef => ⟨_,(hindex rowRef hrowRef).choose_spec.1⟩
    have hpairs := mapM_ok_iff.mp hindices
    have hrows : indices.map (concatenated.rows[·]?) = refs.map fun rowRef => some (projectRow columns (build.rowAt rowRef)) := by
      rw [← List.forall₂_eq_eq_eq,List.forall₂_map_left_iff,List.forall₂_map_right_iff]
      refine List.Forall₂.flip (((List.forall₂_and_left _ _).mpr ⟨fun _ h => h,hpairs⟩).imp ?_)
      rintro rowRef index ⟨hrowRef,hok⟩
      obtain ⟨index',hok',hat⟩ := hindex rowRef hrowRef
      obtain rfl := Except.ok.inj (hok.symm.trans hok')
      exact hat
    have hlt : ∀ index ∈ indices, index < concatenated.rows.length := by
      intro index hmem
      obtain ⟨rowRef,hrowRef,hok⟩ := exists_of_forall₂_right hpairs hmem
      obtain ⟨index',hok',hat⟩ := hindex rowRef hrowRef
      obtain rfl := Except.ok.inj (hok.symm.trans hok')
      exact (List.getElem?_eq_some_iff.mp hat).1
    obtain ⟨out,hout,houttypes,houtrows⟩ := takeRecordBatchByIndices_eq hlt
    refine ⟨out,?_,fun hne => ?_,?_⟩
    · rw [hconcatenated,except_bind_ok,hindices,except_bind_ok]
      exact hout
    · refine houttypes.trans (hctypes fun hnil => ?_)
      obtain ⟨rowRef,hrowRef⟩ := List.exists_mem_of_ne_nil refs hne
      have hmem : rowRef.batch ∈ referencedBatches refs := mem_referencedBatches.mpr ⟨rowRef,hrowRef,rfl⟩
      rw [hnil,List.length_nil,eq_comm,List.length_eq_zero_iff] at hcount
      rw [hcount] at hmem
      cases hmem
    · refine List.map_injective_iff.mpr (Option.some_injective _) ?_
      rw [houtrows,hrows,List.map_map]
      rfl
  · rw [herror]
    exact .inr ⟨rfl,by simpa [referencedRows] using hlarge⟩

theorem takeRuns_eq (hvalid : ValidRefs build refs) (hcolumns : ValidColumns build.schema columns) :
    ∃ chunks, takeRuns build columns refs = .ok chunks ∧ (∀ chunk ∈ chunks, chunk.types = projectTypes build.schema columns) ∧
      (refs ≠ [] → chunks ≠ []) ∧
      chunks.flatMap rows = refs.map fun rowRef => projectRow columns (build.rowAt rowRef) := by
  induction hn : refs.length using Nat.strong_induction_on generalizing refs with
  | _ n ih =>
    cases refs with
    | nil => exact ⟨[],by rw [takeRuns],List.forall_mem_nil _,fun h => absurd rfl h,rfl⟩
    | cons first rest =>
      obtain ⟨batch,hbatch,hschema,-⟩ := row_of_isSome (hvalid first List.mem_cons_self)
      obtain ⟨projected,hprojected,hptypes,hprows⟩ := projectBatchColumnsByIndices_eq batch columns
        (hschema ▸ hcolumns)
      have hsplit := List.takeWhile_append_dropWhile (p := fun rowRef : BuildRowRef => decide (rowRef.batch = first.batch))
        (l := rest)
      obtain ⟨run,hrun⟩ : ∃ run, run = first :: rest.takeWhile fun rowRef => rowRef.batch = first.batch := ⟨_,rfl⟩
      have hrest : first :: rest = run ++ rest.dropWhile fun rowRef => rowRef.batch = first.batch := by
        rw [hrun,List.cons_append,hsplit]
      have hrunValid : ValidRefs build run := fun rowRef hmem => hvalid rowRef (by rw [hrest]; exact List.mem_append_left _ hmem)
      have hrunBatch : ∀ rowRef ∈ run, rowRef.batch = first.batch := by
        rw [hrun,List.forall_mem_cons]
        exact ⟨rfl,fun rowRef hmem => by simpa using List.mem_takeWhile_imp hmem⟩
      have hlt : ∀ row ∈ run.map BuildRowRef.row, row < projected.rows.length := by
        rw [hprows,List.length_map]
        exact (rows_of_refs hbatch hrunValid hrunBatch).1
      obtain ⟨chunk,hchunk,hctypes,hcrows⟩ := takeRecordBatchByIndices_eq hlt
      have hshort := (List.dropWhile_sublist (l := rest) fun rowRef => decide (rowRef.batch = first.batch)).length_le
      have hrestValid : ValidRefs build (rest.dropWhile fun rowRef => rowRef.batch = first.batch) := fun rowRef hmem =>
        hvalid rowRef (by rw [hrest]; exact List.mem_append_right _ hmem)
      obtain ⟨chunks,hchunks,htypes,-,hrows⟩ := ih _ (by rw [← hn,List.length_cons]; omega) hrestValid rfl
      refine ⟨chunk :: chunks,?_,?_,fun _ => List.cons_ne_nil _ _,?_⟩
      · rw [takeRuns,← hrun,batch_eq_ok hbatch,except_bind_ok,hprojected,except_bind_ok,hchunk,except_bind_ok,hchunks]
        rfl
      · rw [List.forall_mem_cons]
        exact ⟨by rw [hctypes,hptypes,hschema],htypes⟩
      · rw [List.flatMap_cons,hrows,project_take hbatch hrunValid hrunBatch hprows hcrows,hrest,List.map_append]

theorem contiguous_eq {batchIndex start len : ℕ} (hvalid : ValidRefs build refs) (hcolumns : ValidColumns build.schema columns)
    (h : contiguousBuildRefRange refs = some (batchIndex,start,len)) :
    ∃ out, takeBuildRowRefsProjectedIndices build refs columns = .ok out ∧ GivesRows build refs columns out := by
  obtain ⟨hpos,hrows,hall⟩ := contiguousBuildRefRange_eq h
  have hne : refs ≠ [] := by
    rintro rfl
    cases h
  obtain ⟨first,hfirst⟩ := List.exists_mem_of_ne_nil refs hne
  obtain ⟨batch,hbatch,hschema,-⟩ := row_of_isSome (hvalid first hfirst)
  rw [hall first hfirst] at hbatch
  obtain ⟨projected,hprojected,hptypes,hprows⟩ := projectBatchColumnsByIndices_eq batch columns
    (hschema ▸ hcolumns)
  have hend : start + len ≤ projected.rows.length := by
    have hlast := (rows_of_refs hbatch hvalid hall).1 (start + (len - 1)) (by rw [hrows,List.mem_range'_1]; omega)
    rw [hprows,List.length_map]
    omega
  obtain ⟨out,hout,houttypes,houtrows⟩ := slice_eq hend
  rw [← hrows] at houtrows
  refine ⟨out,?_,fun _ => by rw [houttypes,hptypes,hschema],project_take hbatch hvalid hall hprows houtrows⟩
  unfold takeBuildRowRefsProjectedIndices
  rw [h]
  dsimp only
  rw [batch_eq_ok hbatch,except_bind_ok,hprojected,except_bind_ok,hout]

end Paths

/-- Whatever the references and the projection, the rows are the referenced rows
in their order; only references that alternate between batches of more than 32
bits of rows in all, with a column that is not gathered, are refused. -/
theorem takeBuildRowRefsProjectedIndices_rows {ν : Type} (build : BuildBatches ν) (refs : List BuildRowRef)
    (columns : Option (List ℕ)) (hvalid : ValidRefs build refs) (hcolumns : ValidColumns build.schema columns) :
    (∃ out, takeBuildRowRefsProjectedIndices build refs columns = .ok out ∧ GivesRows build refs columns out) ∨
      takeBuildRowRefsProjectedIndices build refs columns = unsupportedSql buildRowsMessage ∧
        2 ^ 32 ≤ referencedRows build refs ∧ shouldTakeBuildRefsViaGlobalIndices refs = true ∧
        tryTakeBuildRowRefsDirectIndices build refs columns = .ok none := by
  cases hrange : contiguousBuildRefRange refs with
  | some range => exact .inl (contiguous_eq hvalid hcolumns hrange)
  | none =>
    unfold takeBuildRowRefsProjectedIndices
    rw [hrange]
    rcases tryTakeBuildRowRefsDirectIndices_eq hvalid hcolumns with hdirect | ⟨out,hout,hgives⟩
    · rw [hdirect,except_bind_ok]
      dsimp only
      split_ifs with hglobal
      · refine (takeBuildRowRefsViaGlobalIndicesIndices_eq hvalid hcolumns).imp_right fun ⟨herror,hlarge⟩ => ?_
        exact ⟨herror,hlarge,hglobal,rfl⟩
      · refine .inl ?_
        obtain ⟨chunks,hchunks,htypes,hne,hrows⟩ := takeRuns_eq hvalid hcolumns
        rw [hchunks,except_bind_ok]
        split
        · rename_i chunk
          refine ⟨chunk,rfl,fun _ => htypes chunk List.mem_cons_self,?_⟩
          rw [← hrows,List.flatMap_singleton]
        · have hsame : ∀ chunk ∈ chunks, chunk.types = (chunks.head?.map types).getD build.schema := by
            intro chunk hchunk
            cases chunks with
            | nil => cases hchunk
            | cons first rest => exact (htypes chunk hchunk).trans (htypes first List.mem_cons_self).symm
          obtain ⟨out,hout,houttypes,houtrows⟩ := concatTypedBatches_eq hsame
          refine ⟨out,hout,fun hrefs => ?_,houtrows.trans hrows⟩
          obtain ⟨chunk,hchunk⟩ := List.exists_mem_of_ne_nil chunks (hne hrefs)
          rw [houttypes,← hsame chunk hchunk,htypes chunk hchunk]
    · rw [hout,except_bind_ok]
      exact .inl ⟨out,rfl,hgives⟩

section Samples

def dateBatch (n : ℕ) : TypedBatch ℤ :=
  ⟨[.other "Date32"],List.replicate n [some 7],fun _ h => by rw [List.eq_of_mem_replicate h]; rfl⟩

/-- Two batches of dates, with as many rows each as given. -/
def dateBatches (n : ℕ) : BuildBatches ℤ where
  batches := [dateBatch n,dateBatch n]
  schema := [.other "Date32"]
  ne_nil := by simp
  types_eq := by simp [dateBatch]

/-- The first rows of the two batches in turn. -/
def alternatingRefs : List BuildRowRef := (List.range 10).map fun k => ⟨k % 2,0⟩

theorem alternatingRefs_valid {n : ℕ} (h : 0 < n) : ValidRefs (dateBatches n) alternatingRefs := by
  have hbatch : ∀ index < 2, ((dateBatches n).row? ⟨index,0⟩).isSome = true := by
    intro index hindex
    have hat : (dateBatches n).batches[index]? = some (dateBatch n) := by
      rcases Nat.lt_succ_iff_lt_or_eq.mp hindex with hindex | rfl
      · obtain rfl := Nat.lt_one_iff.mp hindex
        rfl
      · rfl
    rw [BuildBatches.row?,hat]
    simp [dateBatch,h]
  intro rowRef hrowRef
  obtain ⟨k,-,rfl⟩ := List.mem_map.mp hrowRef
  exact hbatch _ (Nat.mod_lt _ (by decide))

theorem takeBuildRowRefsProjectedIndices_alternating :
    ∃ out, takeBuildRowRefsProjectedIndices (dateBatches 3) alternatingRefs (some [0]) = .ok out ∧
      GivesRows (dateBatches 3) alternatingRefs (some [0]) out := by
  refine (takeBuildRowRefsProjectedIndices_rows (dateBatches 3) alternatingRefs (some [0])
    (alternatingRefs_valid (by decide)) fun indices h index hindex => ?_).resolve_right fun h => ?_
  · cases h
    simpa [dateBatches] using hindex
  · exact absurd h.2.1 (by decide +kernel)

/-- Batches of 2^31 rows each are one row too many together. -/
theorem takeBuildRowRefsProjectedIndices_refused : ValidRefs (dateBatches (2 ^ 31)) alternatingRefs ∧
    takeBuildRowRefsProjectedIndices (dateBatches (2 ^ 31)) alternatingRefs none = unsupportedSql buildRowsMessage := by
  refine ⟨alternatingRefs_valid (Nat.two_pow_pos 31),?_⟩
  have hrange : contiguousBuildRefRange alternatingRefs = none := by decide
  have hruns : shouldTakeBuildRefsViaGlobalIndices alternatingRefs = true := by decide
  have hbatches : referencedBatches alternatingRefs = [0,1] := by decide +kernel
  have hdirect : ∀ n, tryTakeBuildRowRefsDirectIndices (dateBatches n) alternatingRefs none = .ok none := by
    intro n
    unfold tryTakeBuildRowRefsDirectIndices
    rw [hruns]
    rfl
  have hstep : ∀ n < 2 ^ 32, ∀ index batches offsets offset, (dateBatches n).batches[index]? = some (dateBatch n) →
      appendGlobal (dateBatches n) none (batches,offsets,offset) index =
        if offset + n < 2 ^ 32 then .ok (batches ++ [dateBatch n],offsets ++ [(index,offset)],offset + n)
        else unsupportedSql buildRowsMessage := by
    intro n hn index batches offsets offset hat
    have hlength : (dateBatch n).rows.length = n := List.length_replicate
    have hproject : projectBatchColumnsByIndices (dateBatch n) none = .ok (dateBatch n) := rfl
    unfold appendGlobal
    dsimp only
    rw [batch_eq_ok hat,except_bind_ok,hproject,except_bind_ok,hlength,u32TryFrom,if_pos hn]
    rfl
  unfold takeBuildRowRefsProjectedIndices
  rw [hrange]
  dsimp only
  rw [hdirect,except_bind_ok]
  dsimp only
  rw [if_pos hruns]
  unfold takeBuildRowRefsViaGlobalIndicesIndices
  rw [hbatches,List.foldlM_cons,hstep _ (by norm_num) 0 [] [] 0 rfl,if_pos (by norm_num),except_bind_ok,List.foldlM_cons,hstep _ (by norm_num) 1 _ _ _ rfl,
    if_neg (by norm_num)]
  rfl

end Samples
end Dodam.Execution
