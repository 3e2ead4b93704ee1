import Dodam.Copy.ParquetSink

/-! # What the Parquet sink stores

The first call with rows decides which writer is opened.
-/
namespace Dodam.Copy
open Execution (Result unsupportedSql)
open Foundation

/-- Names and types of the columns, which all calls of a sink share. -/
def Schema.shape (schema : Schema) : List (String × DataType) := schema.map fun field => (field.name,field.dataType)

namespace PrimitiveBatch

def Converts (batch : PrimitiveBatch) : Prop :=
  batch.columns ≠ [] ∧ ∀ column ∈ batch.columns, column.dataType = column.values.arrayType

instance (batch : PrimitiveBatch) : Decidable batch.Converts :=
  inferInstanceAs (Decidable (batch.columns ≠ [] ∧ ∀ column ∈ batch.columns, column.dataType = column.values.arrayType))

theorem all_zip_map {α β : Type*} (f : α → β) (p : β × α → Bool) (l : List α) :
    ((l.map f).zip l).all p = l.all fun a => p (f a,a) := by
  induction l with
  | nil => rfl
  | cons a l ih => exact congrArg (p (f a,a) && ·) ih

theorem matchesSchema_iff (batch : PrimitiveBatch) (schema : Schema) : batch.matchesSchema schema = true ↔ schema = batch.schema := by
  unfold matchesSchema PrimitiveBatch.schema
  generalize batch.columns = columns
  induction columns generalizing schema with
  | nil =>
    cases schema with
    | nil => simp
    | cons field fields => simp
  | cons column columns ih =>
    cases schema with
    | nil => simp
    | cons field fields =>
      have hfields := ih fields
      have hfield : (field.name = column.name ∧ field.dataType = column.dataType) ∧ field.nullable = column.nullable ↔
          field = ⟨column.name,column.dataType,column.nullable⟩ := by
        cases field
        simp [and_assoc]
      simp only [Bool.and_eq_true,decide_eq_true_eq,List.length_cons,Nat.succ_inj,List.zip_cons_cons,List.all_cons,List.map_cons,
        List.cons.injEq,hfield,← hfields]
      tauto

theorem intoRecordBatchWithSchema_ok {batch : PrimitiveBatch} (h : batch.Converts) :
    ∃ data, batch.intoRecordBatchWithSchema batch.schema = .ok data ∧ data.schema = batch.schema ∧ data.rows = batch.rows := by
  have hlength : batch.schema.length = batch.columns.length := List.length_map ..
  refine ⟨⟨batch.schema,batch.rows,batch.rows_fit hlength⟩,?_,rfl,rfl⟩
  unfold intoRecordBatchWithSchema
  rw [dif_pos hlength,if_pos]
  refine ⟨h.1,?_⟩
  unfold PrimitiveBatch.schema
  rw [all_zip_map,List.all_eq_true]
  intro column hcolumn
  exact decide_eq_true (h.2 column hcolumn)

end PrimitiveBatch

open PrimitiveBatch

namespace ParquetFileQuerySink

theorem writeConverted_eq (sink : ParquetFileQuerySink) (batch : PrimitiveBatch) :
    ∃ schema, sink.writeConverted batch =
      (batch.intoRecordBatchWithSchema batch.schema).bind { sink with primitiveSchema := schema }.writeParquetBatch := by
  unfold writeConverted
  cases hschema : sink.primitiveSchema with
  | none => exact ⟨_,rfl⟩
  | some schema =>
    dsimp only
    split_ifs with hmatch
    · have hsink : sink = { sink with primitiveSchema := some schema } := by rw [← hschema]
      rw [(batch.matchesSchema_iff schema).mp hmatch] at hsink ⊢
      exact ⟨_,congrArg _ (congrArg _ hsink)⟩
    · exact ⟨_,rfl⟩

structure Fresh (sink : ParquetFileQuerySink) (options : ParquetCopyOptions) : Prop where
  primitiveWriter : sink.primitiveWriter = none
  writer : sink.writer = none
  options_eq : sink.options = options

structure Arrow (sink : ParquetFileQuerySink) (schema : Schema) (rows : List Row) : Prop where
  primitiveWriter : sink.primitiveWriter = none
  writer : sink.writer = some ⟨schema,rows⟩

variable {sink : ParquetFileQuerySink}

theorem Arrow.writeParquetBatch {schema : Schema} {rows : List Row} (h : sink.Arrow schema rows)
    (batch : RecordBatch) : ∃ sink', sink.writeParquetBatch batch = .ok sink' ∧ sink'.Arrow schema (rows ++ batch.rows) := by
  by_cases hempty : batch.numRows = 0
  · have hnone : batch.rows = [] := List.length_eq_zero_iff.mp hempty
    have hwrite : sink.writeParquetBatch batch = .ok sink := by
      simp only [ParquetFileQuerySink.writeParquetBatch,h.primitiveWriter,Option.isSome_none,Bool.false_eq_true,if_false,if_pos hempty]
    rw [hnone,List.append_nil]
    exact ⟨sink,hwrite,h⟩
  · have hwrite : sink.writeParquetBatch batch = .ok { sink with writer := some ⟨schema,rows ++ batch.rows⟩ } := by
      simp only [ParquetFileQuerySink.writeParquetBatch,h.primitiveWriter,h.writer,Option.isSome_none,Bool.false_eq_true,if_false,
        if_neg hempty,ArrowWriter.write]
    exact ⟨_,hwrite,h.primitiveWriter,rfl⟩

theorem Fresh.writeParquetBatch {options : ParquetCopyOptions} (h : sink.Fresh options)
    (batch : RecordBatch) : (batch.numRows = 0 → sink.writeParquetBatch batch = .ok sink) ∧
      (batch.numRows ≠ 0 → ∃ sink', sink.writeParquetBatch batch = .ok sink' ∧ sink'.Arrow batch.schema batch.rows) := by
  constructor
  · intro hempty
    simp only [ParquetFileQuerySink.writeParquetBatch,h.primitiveWriter,Option.isSome_none,Bool.false_eq_true,if_false,if_pos hempty]
  · intro hrows
    have hwrite : sink.writeParquetBatch batch = .ok { sink with writer := some ⟨batch.schema,batch.rows⟩ } := by
      simp only [ParquetFileQuerySink.writeParquetBatch,h.primitiveWriter,h.writer,Option.isSome_none,Bool.false_eq_true,if_false,
        if_neg hrows,ArrowWriter.write,List.nil_append]
    exact ⟨_,hwrite,h.primitiveWriter,rfl⟩

end ParquetFileQuerySink

namespace SinkCall

def numRows (call : SinkCall) : ℕ := call.rows.length

/-- The call can be handed to the Arrow writer. -/
def Converts : SinkCall → Prop
  | .batch _ => True
  | .primitive data => data.Converts

def TakenByColumns : SinkCall → Prop
  | .batch _ => False
  | .primitive data => (primitiveParquetColumns data).isSome

/-- The call opens the column writer, unless the other one is opened. -/
def Starts (env : PrimitiveSinkEnv) (options : ParquetCopyOptions) : SinkCall → Prop
  | .batch _ => False
  | .primitive data =>
    primitiveParquetSinkEnabled env data = true ∧ (primitiveParquetColumns data).isSome ∧ primitiveParquetOptionsSupported options = true

/-- The message type of the column writer can name the columns. -/
def Plain (call : SinkCall) : Prop := ∀ field ∈ call.schema, primitiveParquetFieldName field.name = .ok field.name

theorem numRows_primitive (data : PrimitiveBatch) : (primitive data).numRows = data.numRows := by
  unfold numRows rows PrimitiveBatch.rows
  rw [List.length_map,List.length_range]

open ParquetFileQuerySink

section Steps
variable {env : PrimitiveSinkEnv} {options : ParquetCopyOptions} {sink : ParquetFileQuerySink} {schema : Schema} {rows : List Row}
  {call : SinkCall}

variable (env) in
theorem apply_arrow (hsink : sink.Arrow schema rows) (hcall : call.Converts) :
    ∃ sink', call.apply env sink = .ok sink' ∧ sink'.Arrow schema (rows ++ call.rows) := by
  cases call with
  | batch data => exact hsink.writeParquetBatch data
  | primitive data =>
    obtain ⟨stored,hwrite⟩ := sink.writeConverted_eq data
    obtain ⟨converted,hconverted,-,hrows⟩ := intoRecordBatchWithSchema_ok hcall
    have happly : (primitive data).apply env sink = sink.writeConverted data := by
      dsimp only [apply]
      unfold writePrimitiveBatch
      rw [hsink.primitiveWriter,hsink.writer]
      rfl
    have hstored : ({ sink with primitiveSchema := stored } : ParquetFileQuerySink).Arrow schema rows := ⟨hsink.1,hsink.2⟩
    have hdata : (primitive data).rows = converted.rows := hrows.symm
    rw [happly,hwrite,hconverted,hdata]
    exact hstored.writeParquetBatch converted

theorem apply_fresh_eq (hsink : sink.Fresh options) {data : PrimitiveBatch}
    (hcall : data.numRows = 0 ∨ ¬(primitive data).Starts env options) :
    (primitive data).apply env sink = sink.writeConverted data := by
  dsimp only [apply]
  unfold writePrimitiveBatch
  rw [hsink.primitiveWriter,hsink.writer]
  split_ifs with hopen
  · have hnonempty : data.numRows ≠ 0 := by
      have := (Bool.and_eq_true _ _ ▸ hopen).2
      simpa [isEmpty] using this
    have hnot := hcall.resolve_left hnonempty
    unfold PrimitiveParquetFileWriter.tryNew
    cases hcolumns : primitiveParquetColumns data with
    | none => rfl
    | some columns =>
      dsimp only
      rw [if_pos]
      · rfl
      · rw [hsink.options_eq]
        by_contra hoptions
        apply hnot
        refine ⟨?_,hcolumns ▸ rfl,by simpa using hoptions⟩
        have := (Bool.and_eq_true _ _ ▸ hopen).1
        simpa using this
  · rfl

variable (env) in
/-- Calls without rows leave the sink without writer. -/
theorem apply_fresh_empty (hsink : sink.Fresh options) (hempty : call.numRows = 0) :
    (∀ sink', call.apply env sink = .ok sink' → sink'.Fresh options) ∧ (call.Converts → ∃ sink', call.apply env sink = .ok sink') := by
  cases call with
  | batch data =>
    have happly : (batch data).apply env sink = .ok sink := (hsink.writeParquetBatch data).1 hempty
    rw [happly]
    constructor
    · intro sink' h
      cases h
      exact hsink
    · exact fun _ => ⟨sink,rfl⟩
  | primitive data =>
    rw [numRows_primitive] at hempty
    obtain ⟨stored,hwrite⟩ := sink.writeConverted_eq data
    have hstored : ({ sink with primitiveSchema := stored } : ParquetFileQuerySink).Fresh options := ⟨hsink.1,hsink.2,hsink.3⟩
    have hrows : ∀ {schema converted}, data.intoRecordBatchWithSchema schema = .ok converted → converted.numRows = 0 := by
      intro schema converted h
      unfold PrimitiveBatch.intoRecordBatchWithSchema at h
      split_ifs at h
      cases h
      unfold RecordBatch.numRows PrimitiveBatch.rows
      rw [List.length_map,List.length_range,hempty]
    rw [apply_fresh_eq hsink (Or.inl hempty),hwrite]
    constructor
    · intro sink' h
      obtain ⟨converted,hconverted,h⟩ := bind_eq_ok_iff.mp h
      rw [(hstored.writeParquetBatch converted).1 (hrows hconverted)] at h
      cases h
      exact hstored
    · intro hcall
      obtain ⟨converted,hconverted,-,-⟩ := intoRecordBatchWithSchema_ok hcall
      rw [hconverted]
      exact ⟨_,(hstored.writeParquetBatch converted).1 (hrows hconverted)⟩

theorem apply_fresh_arrow (hsink : sink.Fresh options) (hrows : call.numRows ≠ 0) (hstarts : ¬call.Starts env options)
    (hcall : call.Converts) : ∃ sink', call.apply env sink = .ok sink' ∧ sink'.Arrow call.schema call.rows := by
  cases call with
  | batch data => exact (hsink.writeParquetBatch data).2 hrows
  | primitive data =>
    obtain ⟨stored,hwrite⟩ := sink.writeConverted_eq data
    obtain ⟨converted,hconverted,hschema,hdata⟩ := intoRecordBatchWithSchema_ok hcall
    have hstored : ({ sink with primitiveSchema := stored } : ParquetFileQuerySink).Fresh options := ⟨hsink.1,hsink.2,hsink.3⟩
    have hnonempty : converted.numRows ≠ 0 := by
      unfold RecordBatch.numRows
      rw [hdata]
      exact hrows
    obtain ⟨sink',hsink',harrow⟩ := (hstored.writeParquetBatch converted).2 hnonempty
    rw [apply_fresh_eq hsink (Or.inr hstarts),hwrite,hconverted]
    rw [hschema,hdata] at harrow
    exact ⟨sink',hsink',harrow⟩

end Steps
end SinkCall

section ColumnWriter

def columnOf : DataType → Option PrimitiveParquetColumn
  | .int32 | .date32 => some .i32
  | .int64 => some .i64
  | .other _ => none

theorem primitiveParquetColumn_cases {column : PrimitiveColumn} {columnType : PrimitiveParquetColumn}
    (h : primitiveParquetColumn column = some columnType) :
    columnOf column.dataType = some columnType ∧
      ((∃ values, column.values = .i32 values) ∧ columnType = .i32 ∨ (∃ values, column.values = .i64 values) ∧ columnType = .i64) := by
  unfold primitiveParquetColumn at h
  split at h
  · rename_i values htype hvalues
    cases h
    exact ⟨htype ▸ rfl,Or.inl ⟨⟨values,hvalues⟩,rfl⟩⟩
  · rename_i values htype hvalues
    cases h
    exact ⟨htype ▸ rfl,Or.inl ⟨⟨values,hvalues⟩,rfl⟩⟩
  · rename_i values htype hvalues
    cases h
    exact ⟨htype ▸ rfl,Or.inr ⟨⟨values,hvalues⟩,rfl⟩⟩
  · cases h

variable {batch : PrimitiveBatch} {columns : List PrimitiveParquetColumn}

theorem primitiveParquetColumns_some (h : primitiveParquetColumns batch = some columns) :
    (∀ column ∈ batch.columns, column.nullable = false) ∧
      List.Forall₂ (fun column columnType => primitiveParquetColumn column = some columnType) batch.columns columns := by
  unfold primitiveParquetColumns at h
  split_ifs at h with hnullable
  refine ⟨?_,mapM_eq_some_iff.mp h⟩
  intro column hcolumn
  by_contra hnull
  apply hnullable
  have hany : batch.columns.any PrimitiveColumn.nullable = true := List.any_eq_true.mpr ⟨column,hcolumn,by simpa using hnull⟩
  rw [hany,Bool.or_true]

theorem primitiveParquetColumns_unique {other : PrimitiveBatch} {columns' : List PrimitiveParquetColumn}
    (h : primitiveParquetColumns batch = some columns) (h' : primitiveParquetColumns other = some columns')
    (hshape : batch.schema.shape = other.schema.shape) : columns = columns' := by
  have htypes : ∀ {batch columns}, primitiveParquetColumns batch = some columns →
      batch.schema.shape.map (fun entry => columnOf entry.2) = columns.map some := by
    intro batch columns h
    unfold schema Schema.shape
    rw [List.map_map,List.map_map]
    apply List.forall₂_eq_eq_eq ▸ List.forall₂_map_left_iff.mpr (List.forall₂_map_right_iff.mpr ?_)
    exact (primitiveParquetColumns_some h).2.imp fun column columnType hcolumn => (primitiveParquetColumn_cases hcolumn).1
  have hsame : columns.map some = columns'.map some := by rw [← htypes h,← htypes h',hshape]
  exact List.map_injective_iff.mpr (fun _ _ => Option.some.inj) hsame

theorem primitiveParquetFieldName_eq {name name' : String} (h : primitiveParquetFieldName name = .ok name') : name' = name := by
  unfold primitiveParquetFieldName at h
  split at h
  · cases h
  · split_ifs at h
    · exact (Except.ok.inj h).symm
    · cases h

theorem primitiveParquetSchema_iff (h : primitiveParquetColumns batch = some columns) :
    ((SinkCall.primitive batch).Plain → primitiveParquetSchema batch columns = .ok batch.schema) ∧
      (¬(SinkCall.primitive batch).Plain → ∃ e, primitiveParquetSchema batch columns = .error e) := by
  obtain ⟨hnullable,hcolumns⟩ := primitiveParquetColumns_some h
  have hzip : (batch.columns.zip columns).map Prod.fst = batch.columns := List.map_fst_zip (Nat.le_of_eq hcolumns.length_eq)
  constructor
  · intro hplain
    have hmap : batch.schema = (batch.columns.zip columns).map fun entry => ⟨entry.1.name,entry.1.dataType,entry.1.nullable⟩ := by
      unfold schema
      nth_rewrite 1 [← hzip]
      exact List.map_map ..
    rw [hmap]
    apply mapM_eq_map
    rintro ⟨column,columnType⟩ hentry
    have hcolumn : column ∈ batch.columns := hzip ▸ List.mem_map_of_mem hentry
    have hname : primitiveParquetFieldName column.name = .ok column.name :=
      hplain ⟨column.name,column.dataType,column.nullable⟩ (List.mem_map_of_mem hcolumn)
    have htype : columnOf column.dataType = some columnType := by
      have hpair := List.forall₂_iff_zip.mp hcolumns
      exact (primitiveParquetColumn_cases (hpair.2 hentry)).1
    dsimp only
    rw [hname,hnullable column hcolumn]
    cases hdataType : column.dataType with
    | int32 => rw [hdataType] at htype; cases htype; rfl
    | date32 => rw [hdataType] at htype; cases htype; rfl
    | int64 => rw [hdataType] at htype; cases htype; rfl
    | other name => rw [hdataType] at htype; cases htype
  · intro hplain
    rcases except_cases (primitiveParquetSchema batch columns) with ⟨schema,hschema⟩ | herror
    · exfalso
      apply hplain
      intro field hfield
      obtain ⟨column,hcolumn,rfl⟩ := List.mem_map.mp hfield
      obtain ⟨⟨_,columnType⟩,hentry,rfl⟩ := List.mem_map.mp (hzip.symm ▸ hcolumn)
      obtain ⟨_,-,hfield⟩ := exists_of_forall₂_left (mapM_ok_iff.mp hschema) hentry
      obtain ⟨name,hname,-⟩ := map_eq_ok_iff.mp hfield
      exact hname.trans (congrArg _ (primitiveParquetFieldName_eq hname))
    · exact herror

theorem writeColumns_ok {schema : Schema} {columns : List PrimitiveColumn} {types : List PrimitiveParquetColumn}
    (h : List.Forall₂ (fun column columnType => primitiveParquetColumn column = some columnType) columns types)
    (hlength : schema.length = columns.length) : PrimitiveParquetFileWriter.writeColumns schema (columns.zip types) = .ok () := by
  induction h generalizing schema with
  | nil => rw [List.length_eq_zero_iff.mp hlength]; rfl
  | @cons column columnType columns types hcolumn _ ih =>
    cases schema with
    | nil => cases hlength
    | cons field fields =>
      have hrest := ih (Nat.succ.inj hlength)
      rw [List.zip_cons_cons]
      unfold PrimitiveParquetFileWriter.writeColumns
      obtain ⟨-,⟨⟨values,hvalues⟩,rfl⟩ | ⟨⟨values,hvalues⟩,rfl⟩⟩ := primitiveParquetColumn_cases hcolumn
      · rw [hvalues]
        exact hrest
      · rw [hvalues]
        exact hrest

theorem writeBatch_ok {writer : PrimitiveParquetFileWriter}
    (h : primitiveParquetColumns batch = some writer.columns) (hlength : writer.writer.schema.length = batch.columns.length) :
    writer.writeBatch batch = .ok { writer with writer := { writer.writer with rows := writer.writer.rows ++ batch.rows } } := by
  unfold PrimitiveParquetFileWriter.writeBatch
  rw [h]
  dsimp only
  rw [if_neg (not_not.mpr rfl)]
  by_cases hempty : batch.numRows = 0
  · have hrows : batch.rows = [] := by
      unfold rows
      rw [hempty]
      rfl
    have hisEmpty : batch.isEmpty = true := decide_eq_true hempty
    rw [if_pos hisEmpty,hrows,List.append_nil]
  · have hnonempty : batch.isEmpty ≠ true := by simpa [isEmpty] using hempty
    rw [if_neg hnonempty,writeColumns_ok (primitiveParquetColumns_some h).2 hlength]
    rfl

end ColumnWriter

structure ParquetFileQuerySink.Columns (sink : ParquetFileQuerySink) (schema : Schema) (columns : List PrimitiveParquetColumn)
    (rows : List Row) : Prop where
  primitiveWriter : sink.primitiveWriter = some ⟨⟨schema,rows⟩,columns⟩

theorem ParquetFileQuerySink.Columns.finishParquet {sink : ParquetFileQuerySink} {schema : Schema}
    {columns : List PrimitiveParquetColumn} {rows : List Row} (h : sink.Columns schema columns rows) :
    sink.finishParquet = .parquet schema rows := by
  unfold ParquetFileQuerySink.finishParquet
  rw [h.primitiveWriter]

theorem ParquetFileQuerySink.Arrow.finishParquet {sink : ParquetFileQuerySink} {schema : Schema} {rows : List Row}
    (h : sink.Arrow schema rows) : sink.finishParquet = .parquet schema rows := by
  unfold ParquetFileQuerySink.finishParquet
  rw [h.primitiveWriter,h.writer]

namespace SinkCall
open ParquetFileQuerySink

section ColumnSteps
variable {env : PrimitiveSinkEnv} {options : ParquetCopyOptions} {sink : ParquetFileQuerySink} {schema : Schema} {rows : List Row}
  {columns : List PrimitiveParquetColumn} {call : SinkCall} {data : PrimitiveBatch}

variable (env) in
theorem apply_columns (hsink : sink.Columns schema columns rows) (hcall : primitiveParquetColumns data = some columns)
    (hlength : schema.length = data.columns.length) :
    ∃ sink', (primitive data).apply env sink = .ok sink' ∧ sink'.Columns schema columns (rows ++ data.rows) := by
  dsimp only [apply]
  unfold writePrimitiveBatch
  rw [hsink.primitiveWriter]
  dsimp only
  rw [writeBatch_ok hcall hlength]
  exact ⟨_,rfl,⟨rfl⟩⟩

variable (env) in
theorem apply_columns_error (hsink : sink.Columns schema columns rows) (hcall : ¬call.TakenByColumns) :
    ∃ e, call.apply env sink = .error e := by
  cases call with
  | batch data =>
    dsimp only [apply]
    unfold writeParquetBatch
    rw [hsink.primitiveWriter]
    exact ⟨_,rfl⟩
  | primitive data =>
    have hnone : primitiveParquetColumns data = none := Option.not_isSome_iff_eq_none.mp hcall
    dsimp only [apply]
    unfold writePrimitiveBatch PrimitiveParquetFileWriter.writeBatch
    rw [hsink.primitiveWriter,hnone]
    exact ⟨_,rfl⟩

/-- The first call with rows opens the column writer, if it can name the columns. -/
theorem apply_fresh_columns (hsink : sink.Fresh options) (hrows : data.numRows ≠ 0) (hstarts : (primitive data).Starts env options)
    (hcolumns : primitiveParquetColumns data = some columns) :
    ((primitive data).Plain → ∃ sink', (primitive data).apply env sink = .ok sink' ∧ sink'.Columns data.schema columns data.rows) ∧
      (¬(primitive data).Plain → ∃ e, (primitive data).apply env sink = .error e) := by
  have hopen : (sink.writer.isNone && primitiveParquetSinkEnabled env data && !data.isEmpty) = true := by
    have hnonempty : data.isEmpty = false := decide_eq_false hrows
    rw [hsink.writer,hstarts.1,hnonempty]
    rfl
  have hsupported : ¬(!primitiveParquetOptionsSupported sink.options) = true := by
    rw [hsink.options_eq,hstarts.2.2]
    exact Bool.false_ne_true
  dsimp only [apply]
  unfold writePrimitiveBatch
  rw [hsink.primitiveWriter]
  rw [if_pos hopen]
  unfold PrimitiveParquetFileWriter.tryNew
  rw [hcolumns]
  dsimp only
  rw [if_neg hsupported]
  constructor
  · intro hplain
    have hlength : (PrimitiveParquetFileWriter.mk ⟨data.schema,[]⟩ columns).writer.schema.length = data.columns.length :=
      List.length_map ..
    rw [(primitiveParquetSchema_iff hcolumns).1 hplain]
    refine ⟨{ sink with primitiveWriter := some ⟨⟨data.schema,data.rows⟩,columns⟩ },?_,⟨rfl⟩⟩
    exact congrArg (Except.map _) (writeBatch_ok hcolumns hlength)
  · intro hplain
    obtain ⟨e,he⟩ := (primitiveParquetSchema_iff hcolumns).2 hplain
    rw [he]
    exact ⟨e,rfl⟩

end ColumnSteps

section Runs
variable {env : PrimitiveSinkEnv} {options : ParquetCopyOptions}

def allRows (calls : List SinkCall) : List Row := calls.flatMap rows

variable {calls : List SinkCall} {shape : List (String × DataType)}

variable (env) in
theorem foldlM_arrow {sink : ParquetFileQuerySink} {schema : Schema} {rows : List Row}
    (hsink : sink.Arrow schema rows) (h : ∀ call ∈ calls, call.Converts) :
    ∃ sink', calls.foldlM (apply env) sink = .ok sink' ∧ sink'.Arrow schema (rows ++ allRows calls) := by
  induction calls generalizing sink rows with
  | nil => exact ⟨sink,rfl,by rw [allRows,List.flatMap_nil,List.append_nil]; exact hsink⟩
  | cons call calls ih =>
    obtain ⟨sink₁,hstep,hsink₁⟩ := apply_arrow env hsink (h call List.mem_cons_self)
    obtain ⟨sink₂,hrest,hsink₂⟩ := ih hsink₁ fun call hcall => h call (List.mem_cons_of_mem _ hcall)
    rw [List.append_assoc] at hsink₂
    exact ⟨sink₂,by rw [List.foldlM_cons,hstep]; exact hrest,hsink₂⟩

variable (env) in
theorem foldlM_columns {sink : ParquetFileQuerySink} {schema : Schema} {columns : List PrimitiveParquetColumn}
    {rows : List Row} (hsink : sink.Columns schema columns rows)
    (h : ∀ call ∈ calls, ∃ data, call = primitive data ∧ primitiveParquetColumns data = some columns ∧ schema.length = data.columns.length) :
    ∃ sink', calls.foldlM (apply env) sink = .ok sink' ∧ sink'.Columns schema columns (rows ++ allRows calls) := by
  induction calls generalizing sink rows with
  | nil => exact ⟨sink,rfl,by rw [allRows,List.flatMap_nil,List.append_nil]; exact hsink⟩
  | cons call calls ih =>
    obtain ⟨data,rfl,hcolumns,hlength⟩ := h call List.mem_cons_self
    obtain ⟨sink₁,hstep,hsink₁⟩ := apply_columns env hsink hcolumns hlength
    obtain ⟨sink₂,hrest,hsink₂⟩ := ih hsink₁ fun call hcall => h call (List.mem_cons_of_mem _ hcall)
    rw [List.append_assoc] at hsink₂
    exact ⟨sink₂,by rw [List.foldlM_cons,hstep]; exact hrest,hsink₂⟩

theorem apply_columns_kept {call : SinkCall} {sink sink' : ParquetFileQuerySink}
    (hsink : ∃ schema columns rows, sink.Columns schema columns rows) (h : call.apply env sink = .ok sink') :
    ∃ schema columns rows, sink'.Columns schema columns rows := by
  obtain ⟨schema,columns,rows,hsink⟩ := hsink
  cases call with
  | batch data =>
    obtain ⟨e,he⟩ := apply_columns_error env hsink (show ¬(batch data).TakenByColumns from id)
    rw [he] at h
    cases h
  | primitive data =>
    dsimp only [apply] at h
    unfold writePrimitiveBatch at h
    rw [hsink.primitiveWriter] at h
    obtain ⟨writer,-,rfl⟩ := map_eq_ok_iff.mp h
    exact ⟨_,_,_,⟨rfl⟩⟩

/-- The sink gets all these calls into its file: some call has rows, and the writer that the first of those
opens can take all calls. -/
def Storable (env : PrimitiveSinkEnv) (options : ParquetCopyOptions) : List SinkCall → Prop
  | [] => False
  | call :: calls =>
    if call.numRows = 0 then call.Converts ∧ Storable env options calls
    else
      call.Starts env options ∧ call.Plain ∧ (∀ other ∈ calls, other.TakenByColumns) ∨
        ¬call.Starts env options ∧ call.Converts ∧ ∀ other ∈ calls, other.Converts ∧ ∀ row ∈ other.rows, rowFits call.schema row = true

/-- A guard refuses these calls: the first with rows opens the column writer, which cannot name its columns or
is given a call that it does not take. -/
def Refused (env : PrimitiveSinkEnv) (options : ParquetCopyOptions) : List SinkCall → Prop
  | [] => False
  | call :: calls =>
    if call.numRows = 0 then Refused env options calls
    else call.Starts env options ∧ (¬call.Plain ∨ ∃ other ∈ calls, ¬other.TakenByColumns)

/-- What the file holds after the calls: all rows in their order, under the names and types of the result. -/
def Stores (shape : List (String × DataType)) (calls : List SinkCall) (content : Result FileContent) : Prop :=
  ∃ schema, content = .ok (.parquet schema (allRows calls)) ∧ schema.shape = shape ∧ ∀ row ∈ allRows calls, rowFits schema row = true

theorem exists_columns {call : SinkCall} (h : call.TakenByColumns) :
    ∃ data columns, call = primitive data ∧ primitiveParquetColumns data = some columns := by
  cases call with
  | batch data => exact h.elim
  | primitive data =>
    obtain ⟨columns,hcolumns⟩ := Option.isSome_iff_exists.mp h
    exact ⟨data,columns,rfl,hcolumns⟩

theorem shape_length {schema other : Schema} (h : schema.shape = other.shape) : schema.length = other.length := by
  have := congrArg List.length h
  unfold Schema.shape at this
  rwa [List.length_map,List.length_map] at this

/-- The column writer stores the batches it takes. -/
theorem stores_columns {call : SinkCall} {sink : ParquetFileQuerySink}
    (hsink : sink.Fresh options) (hshape : ∀ other ∈ call :: calls, other.schema.shape = shape) (hrows : call.numRows ≠ 0)
    (hstarts : call.Starts env options) (hplain : call.Plain) (htaken : ∀ other ∈ calls, other.TakenByColumns) :
    Stores shape (call :: calls) (((call :: calls).foldlM (apply env) sink).map finishParquet) := by
  have htakes : call.TakenByColumns := by
    cases call with
    | batch data => exact hstarts.elim
    | primitive data => exact hstarts.2.1
  obtain ⟨data,columns,rfl,hcolumns⟩ := exists_columns htakes
  rw [numRows_primitive] at hrows
  have hfirst : data.schema.shape = shape := hshape _ List.mem_cons_self
  obtain ⟨sink₁,hstep,hsink₁⟩ := (apply_fresh_columns hsink hrows hstarts hcolumns).1 hplain
  have hlater : ∀ other ∈ calls, ∃ data', other = primitive data' ∧ primitiveParquetColumns data' = some columns ∧
      data.schema.length = data'.columns.length := by
    intro other hother
    obtain ⟨data',columns',rfl,hcolumns'⟩ := exists_columns (htaken other hother)
    have hsame : data.schema.shape = data'.schema.shape := hfirst.trans (hshape _ (List.mem_cons_of_mem _ hother)).symm
    rw [← primitiveParquetColumns_unique hcolumns hcolumns' hsame] at hcolumns'
    exact ⟨data',rfl,hcolumns',(shape_length hsame).trans (List.length_map ..)⟩
  obtain ⟨sink₂,hrest,hsink₂⟩ := foldlM_columns env hsink₁ hlater
  refine ⟨data.schema,?_,hfirst,?_⟩
  · rw [List.foldlM_cons,hstep,except_bind_ok,hrest]
    exact congrArg Except.ok hsink₂.finishParquet
  · -- primitive rows have no NULL, so they fit any schema of their width
    intro row hrow
    obtain ⟨other,hother,hmem⟩ := List.mem_flatMap.mp hrow
    rcases List.mem_cons.mp hother with rfl | hother
    · exact data.rows_fit (List.length_map ..) row hmem
    · obtain ⟨data',rfl,-,hlength⟩ := hlater other hother
      exact data'.rows_fit hlength row hmem

theorem stores_arrow {call : SinkCall} {sink : ParquetFileQuerySink}
    (hsink : sink.Fresh options) (hshape : call.schema.shape = shape) (hrows : call.numRows ≠ 0) (hstarts : ¬call.Starts env options)
    (hconverts : call.Converts) (hlater : ∀ other ∈ calls, other.Converts ∧ ∀ row ∈ other.rows, rowFits call.schema row = true) :
    Stores shape (call :: calls) (((call :: calls).foldlM (apply env) sink).map finishParquet) := by
  obtain ⟨sink₁,hstep,hsink₁⟩ := apply_fresh_arrow hsink hrows hstarts hconverts
  obtain ⟨sink₂,hrest,hsink₂⟩ := foldlM_arrow env hsink₁ fun other hother => (hlater other hother).1
  refine ⟨call.schema,?_,hshape,?_⟩
  · rw [List.foldlM_cons,hstep,except_bind_ok,hrest]
    exact congrArg Except.ok hsink₂.finishParquet
  · intro row hrow
    obtain ⟨other,hother,hmem⟩ := List.mem_flatMap.mp hrow
    rcases List.mem_cons.mp hother with rfl | hother
    · cases other with
      | batch data => exact data.fits row hmem
      | primitive data => exact data.rows_fit (List.length_map ..) row hmem
    · exact (hlater other hother).2 row hmem

theorem foldlM_storable {sink : ParquetFileQuerySink} (hsink : sink.Fresh options)
    (hshape : ∀ call ∈ calls, call.schema.shape = shape) (h : Storable env options calls) :
    Stores shape calls ((calls.foldlM (apply env) sink).map finishParquet) := by
  induction calls generalizing sink with
  | nil => exact h.elim
  | cons call calls ih =>
    unfold Storable at h
    split_ifs at h with hempty
    · obtain ⟨hfresh,hok⟩ := apply_fresh_empty env hsink hempty
      obtain ⟨sink₁,hstep⟩ := hok h.1
      obtain ⟨schema,hrun,hrest⟩ := ih (hfresh sink₁ hstep) (fun call hcall => hshape call (List.mem_cons_of_mem _ hcall)) h.2
      have hnone : allRows (call :: calls) = allRows calls := by
        unfold allRows
        rw [List.flatMap_cons,List.length_eq_zero_iff.mp hempty,List.nil_append]
      refine ⟨schema,?_,by rw [hnone]; exact hrest⟩
      rw [hnone,List.foldlM_cons,hstep]
      exact hrun
    · rcases h with ⟨hstarts,hplain,htaken⟩ | ⟨hstarts,hconverts,hlater⟩
      · exact stores_columns hsink hshape hempty hstarts hplain htaken
      · exact stores_arrow hsink (hshape call List.mem_cons_self) hempty hstarts hconverts hlater

theorem foldlM_refused {sink : ParquetFileQuerySink} (hsink : sink.Fresh options)
    (h : Refused env options calls) : ∃ e, calls.foldlM (apply env) sink = .error e := by
  induction calls generalizing sink with
  | nil => exact h.elim
  | cons call calls ih =>
    unfold Refused at h
    rw [List.foldlM_cons]
    rcases except_cases (call.apply env sink) with ⟨sink₁,hstep⟩ | ⟨e,hstep⟩
    · rw [hstep]
      split_ifs at h with hempty
      · exact ih ((apply_fresh_empty env hsink hempty).1 sink₁ hstep) h
      · obtain ⟨hstarts,hguard⟩ := h
        have htakes : call.TakenByColumns := by
          cases call with
          | batch data => exact hstarts.elim
          | primitive data => exact hstarts.2.1
        obtain ⟨data,columns,rfl,hcolumns⟩ := exists_columns htakes
        rw [numRows_primitive] at hempty
        have hopened := apply_fresh_columns hsink hempty hstarts hcolumns
        rcases Classical.em (primitive data).Plain with hplain | hplain
        · obtain ⟨sink₂,hstep₂,hsink₂⟩ := hopened.1 hplain
          cases hstep.symm.trans hstep₂
          obtain ⟨other,hother,hnot⟩ := hguard.resolve_left (not_not.mpr hplain)
          apply foldlM_error (fun sink => ∃ schema columns rows, sink.Columns schema columns rows)
            (fun _ _ _ hs hs' => apply_columns_kept hs hs') hother
          · rintro sink ⟨schema,columns,rows,hs⟩
            exact apply_columns_error env hs hnot
          · exact ⟨_,_,_,hsink₂⟩
        · obtain ⟨e,he⟩ := hopened.2 hplain
          cases hstep.symm.trans he
    · exact ⟨e,by rw [hstep]; rfl⟩

theorem storable_or_refused (hrows : ∃ call ∈ calls, call.numRows ≠ 0) (hconverts : ∀ call ∈ calls, call.Converts)
    (hfits : ∀ call ∈ calls, ∀ other ∈ calls, ∀ row ∈ other.rows, rowFits call.schema row = true) :
    Storable env options calls ∨ Refused env options calls := by
  induction calls with
  | nil =>
    obtain ⟨call,hcall,-⟩ := hrows
    cases hcall
  | cons call calls ih =>
    unfold Storable Refused
    have hhead := hconverts call List.mem_cons_self
    split_ifs with hempty
    · obtain ⟨other,hother,hnonempty⟩ := hrows
      rcases List.mem_cons.mp hother with rfl | hother
      · exact absurd hempty hnonempty
      · have hrest := ih ⟨other,hother,hnonempty⟩ (fun call hcall => hconverts call (List.mem_cons_of_mem _ hcall))
          fun call hcall other hother => hfits call (List.mem_cons_of_mem _ hcall) other (List.mem_cons_of_mem _ hother)
        exact hrest.imp_left fun h => ⟨hhead,h⟩
    · by_cases hstarts : call.Starts env options
      · by_cases hguard : call.Plain ∧ ∀ other ∈ calls, other.TakenByColumns
        · exact Or.inl (Or.inl ⟨hstarts,hguard⟩)
        · right
          rw [not_and_or] at hguard
          refine ⟨hstarts,hguard.imp_right fun h => ?_⟩
          push Not at h
          exact h
      · left
        right
        refine ⟨hstarts,hhead,?_⟩
        intro other hother
        exact ⟨hconverts other (List.mem_cons_of_mem _ hother),
          fun row hrow => hfits call List.mem_cons_self other (List.mem_cons_of_mem _ hother) row hrow⟩

/-- Calls of one result: all rows are stored in their order where the writer that the first rows open takes all calls,
and the sink fails where a guard of the column writer refuses one. -/
theorem run_stores (env : PrimitiveSinkEnv) (options : ParquetCopyOptions) (shape : List (String × DataType)) (calls : List SinkCall)
    (hshape : ∀ call ∈ calls, call.schema.shape = shape) :
    (Storable env options calls → Stores shape calls (run env options calls)) ∧
      (Refused env options calls → ∃ e, run env options calls = .error e) ∧
      ((∃ call ∈ calls, call.numRows ≠ 0) → (∀ call ∈ calls, call.Converts) →
        (∀ call ∈ calls, ∀ other ∈ calls, ∀ row ∈ other.rows, rowFits call.schema row = true) →
        Storable env options calls ∨ Refused env options calls) := by
  have hfresh : (ParquetFileQuerySink.new options).Fresh options := ⟨rfl,rfl,rfl⟩
  refine ⟨foldlM_storable hfresh hshape,?_,storable_or_refused⟩
  intro h
  obtain ⟨e,he⟩ := foldlM_refused hfresh h
  unfold run
  rw [he]
  exact ⟨e,rfl⟩

end Runs

def countBatch (values : List Int64) : PrimitiveBatch := ⟨[⟨"v",.int64,false,.i64 values⟩],by simp⟩

def countSchema : Schema := [⟨"v",.int64,false⟩]

/-- With the column writer opened even a batch without rows is refused. -/
theorem run_mixed_refused : ¬Stores [("v",.int64)] [primitive (countBatch [1]),batch ⟨countSchema,[],nofun⟩]
    (run ⟨true,false,65536⟩ ⟨false⟩ [primitive (countBatch [1]),batch ⟨countSchema,[],nofun⟩]) := by
  rintro ⟨schema,hrun,-⟩
  have hrefused : Refused ⟨true,false,65536⟩ ⟨false⟩ [primitive (countBatch [1]),batch ⟨countSchema,[],nofun⟩] := by
    unfold Refused
    rw [if_neg (by decide)]
    exact ⟨⟨rfl,rfl,rfl⟩,Or.inr ⟨_,List.mem_singleton_self _,id⟩⟩
  have hfresh : (ParquetFileQuerySink.new ⟨false⟩).Fresh ⟨false⟩ := ⟨rfl,rfl,rfl⟩
  obtain ⟨e,he⟩ := foldlM_refused hfresh hrefused
  unfold run at hrun
  rw [he] at hrun
  cases hrun

/-- Two small batches, without a column writer. -/
theorem run_stores_small : Stores [("v",.int64)] [primitive (countBatch [1]),primitive (countBatch [2,3])]
    (run ⟨false,false,65536⟩ ⟨false⟩ [primitive (countBatch [1]),primitive (countBatch [2,3])]) := by
  have hconverts : ∀ values, (countBatch values).Converts := by
    intro values
    refine ⟨List.cons_ne_nil _ _,?_⟩
    intro column hcolumn
    rw [List.mem_singleton.mp hcolumn]
    rfl
  apply (run_stores _ _ _ _ ?_).1
  · unfold Storable
    rw [if_neg (by decide)]
    refine Or.inr ⟨fun h => absurd h.1 (by decide),hconverts _,?_⟩
    intro other hother
    rw [List.mem_singleton.mp hother]
    exact ⟨hconverts _,by decide⟩
  · intro call hcall
    rcases List.mem_cons.mp hcall with rfl | hcall
    · rfl
    · rw [List.mem_singleton.mp hcall]
      rfl

end SinkCall
end Dodam.Copy
