import Dodam.Execution.Error
import Dodam.Foundation.Fold

/-! # The Parquet sink

A sink has two writers for its file, of which at most one is opened: the Arrow
writer, which takes record batches, and a writer of plain integer columns for
primitive batches. Both are assumed to store what they are given; what is
modelled is which of them is opened, and what is handed to it.
-/
namespace Dodam.Copy
open Execution (Result unsupportedSql)

inductive DataType
  | int32
  | date32
  | int64
  | other (name : String)
deriving DecidableEq

structure Field where
  name : String
  dataType : DataType
  nullable : Bool
deriving DecidableEq

abbrev Schema := List Field

/-- A value of a cell that is not NULL. A date is stored as its days. -/
inductive Value
  | int32 (value : Int32)
  | int64 (value : Int64)
  | other (text : String)
deriving DecidableEq

abbrev Row := List (Option Value)

/-- The row is as wide as the schema and has NULL only in nullable columns. -/
def rowFits : Schema → Row → Bool
  | [],[] => true
  | field :: fields,cell :: cells => (cell.isSome || field.nullable) && rowFits fields cells
  | _,_ => false

theorem rowFits_of_isSome {schema : Schema} {row : Row} (hlength : row.length = schema.length) (hcells : ∀ cell ∈ row, cell.isSome) :
    rowFits schema row = true := by
  induction schema generalizing row with
  | nil => rw [List.length_eq_zero_iff.mp hlength]; rfl
  | cons field fields ih =>
    cases row with
    | nil => cases hlength
    | cons cell cells =>
      have hcell := hcells cell List.mem_cons_self
      have hrest := ih (Nat.succ.inj hlength) fun cell h => hcells cell (List.mem_cons_of_mem _ h)
      unfold rowFits
      rw [hcell,hrest]
      rfl

structure RecordBatch where
  schema : Schema
  rows : List Row
  fits : ∀ row ∈ rows, rowFits schema row = true

def RecordBatch.numRows (batch : RecordBatch) : ℕ := batch.rows.length

inductive PrimitiveColumnValues
  | i32 (values : List Int32)
  | i64 (values : List Int64)
deriving DecidableEq

namespace PrimitiveColumnValues

def len : PrimitiveColumnValues → ℕ
  | i32 values => values.length
  | i64 values => values.length

def cell : PrimitiveColumnValues → ℕ → Option Value
  | i32 values,row => values[row]?.map .int32
  | i64 values,row => values[row]?.map .int64

/-- The type of the array that `into_array` makes. -/
def arrayType : PrimitiveColumnValues → DataType
  | i32 _ => .int32
  | i64 _ => .int64

theorem isSome_cell {values : PrimitiveColumnValues} {row : ℕ} (h : row < values.len) : (values.cell row).isSome := by
  cases values with
  | i32 values =>
    dsimp only [cell]
    rw [List.getElem?_eq_getElem h]
    rfl
  | i64 values =>
    dsimp only [cell]
    rw [List.getElem?_eq_getElem h]
    rfl

end PrimitiveColumnValues

structure PrimitiveColumn where
  name : String
  dataType : DataType
  nullable : Bool
  values : PrimitiveColumnValues
deriving DecidableEq

structure PrimitiveBatch where
  columns : List PrimitiveColumn
  lengths : ∀ column ∈ columns, ∀ other ∈ columns, column.values.len = other.values.len

namespace PrimitiveBatch

def numRows (batch : PrimitiveBatch) : ℕ := (batch.columns.head?.map fun column => column.values.len).getD 0

def isEmpty (batch : PrimitiveBatch) : Bool := batch.numRows = 0

def schema (batch : PrimitiveBatch) : Schema := batch.columns.map fun column => ⟨column.name,column.dataType,column.nullable⟩

def rows (batch : PrimitiveBatch) : List Row :=
  (List.range batch.numRows).map fun row => batch.columns.map fun column => column.values.cell row

def matchesSchema (batch : PrimitiveBatch) (schema : Schema) : Bool :=
  schema.length = batch.columns.length &&
    (schema.zip batch.columns).all fun (field,column) =>
      field.name = column.name && field.dataType = column.dataType && field.nullable = column.nullable

theorem len_eq_numRows (batch : PrimitiveBatch) {column : PrimitiveColumn} (h : column ∈ batch.columns) :
    column.values.len = batch.numRows := by
  unfold numRows
  cases hcolumns : batch.columns with
  | nil =>
    rw [hcolumns] at h
    cases h
  | cons first columns => exact batch.lengths column h first (hcolumns ▸ List.mem_cons_self)

theorem rows_fit (batch : PrimitiveBatch) {schema : Schema} (hlength : schema.length = batch.columns.length) :
    ∀ row ∈ batch.rows, rowFits schema row = true := by
  intro row hrow
  obtain ⟨index,hindex,rfl⟩ := List.mem_map.mp hrow
  apply rowFits_of_isSome
  · rw [List.length_map]
    exact hlength.symm
  · intro cell hcell
    obtain ⟨column,hcolumn,rfl⟩ := List.mem_map.mp hcell
    apply PrimitiveColumnValues.isSome_cell
    rw [batch.len_eq_numRows hcolumn]
    exact List.mem_range.mp hindex

/-- `RecordBatch::try_new` wants a column, and arrays of the types of the schema. -/
def intoRecordBatchWithSchema (batch : PrimitiveBatch) (schema : Schema) : Result RecordBatch :=
  if h : schema.length = batch.columns.length then
    if batch.columns ≠ [] ∧ (schema.zip batch.columns).all fun (field,column) => field.dataType = column.values.arrayType then
      .ok ⟨schema,batch.rows,batch.rows_fit h⟩
    else .error (.err .arrow)
  else .error (.err .arrow)

end PrimitiveBatch

/-- What the options of a COPY say about the primitive writer. -/
structure ParquetCopyOptions where
  dictionaryEnabled : Bool

/-- What the environment says about the primitive writer. -/
structure PrimitiveSinkEnv where
  enable : Bool
  disableAuto : Bool
  autoMinRows : ℕ

inductive PrimitiveParquetColumn
  | i32
  | i64
deriving DecidableEq

def primitiveParquetColumn (column : PrimitiveColumn) : Option PrimitiveParquetColumn :=
  match column.dataType,column.values with
  | .int32,.i32 _ | .date32,.i32 _ => some .i32
  | .int64,.i64 _ => some .i64
  | _,_ => none

def primitiveParquetColumns (batch : PrimitiveBatch) : Option (List PrimitiveParquetColumn) :=
  if batch.columns.isEmpty || batch.columns.any PrimitiveColumn.nullable then none
  else batch.columns.mapM primitiveParquetColumn

def choosePrimitiveParquetSink (supported : Bool) (rows minRows : ℕ) : Bool := supported && decide (max minRows 1 ≤ rows)

def primitiveParquetSinkEnabled (env : PrimitiveSinkEnv) (batch : PrimitiveBatch) : Bool :=
  env.enable || (!env.disableAuto &&
    choosePrimitiveParquetSink (primitiveParquetColumns batch).isSome batch.numRows env.autoMinRows)

def primitiveParquetOptionsSupported (options : ParquetCopyOptions) : Bool := !options.dictionaryEnabled

def primitiveParquetFieldName (name : String) : Result String :=
  match name.toList with
  | [] => unsupportedSql "empty primitive Parquet field name"
  | first :: chars =>
    if (first = '_' || first.isAlpha) && chars.all fun ch => ch = '_' || ch.isAlphanum then .ok name
    else unsupportedSql s!"primitive Parquet field name {name} is not supported by lower-level writer"

/-- The message type of the file, read back as a schema. -/
def primitiveParquetSchema (batch : PrimitiveBatch) (columns : List PrimitiveParquetColumn) : Result Schema :=
  (batch.columns.zip columns).mapM fun (column,parquetType) =>
    (primitiveParquetFieldName column.name).map fun name =>
      match column.dataType,parquetType with
      | .date32,.i32 => ⟨name,.date32,false⟩
      | _,.i32 => ⟨name,.int32,false⟩
      | _,.i64 => ⟨name,.int64,false⟩

/-- A Parquet file as it is written: its schema and the rows so far. -/
structure ArrowWriter where
  schema : Schema
  rows : List Row

def ArrowWriter.write (writer : ArrowWriter) (batch : RecordBatch) : ArrowWriter :=
  { writer with rows := writer.rows ++ batch.rows }

structure PrimitiveParquetFileWriter where
  writer : ArrowWriter
  columns : List PrimitiveParquetColumn

namespace PrimitiveParquetFileWriter

def tryNew (options : ParquetCopyOptions) (batch : PrimitiveBatch) : Result (Option PrimitiveParquetFileWriter) :=
  match primitiveParquetColumns batch with
  | none => .ok none
  | some columns =>
    if !primitiveParquetOptionsSupported options then .ok none
    else (primitiveParquetSchema batch columns).map fun schema => some ⟨⟨schema,[]⟩,columns⟩

/-- The column writers of a row group, one for each field. -/
def writeColumns : Schema → List (PrimitiveColumn × PrimitiveParquetColumn) → Result Unit
  | [],[] => .ok ()
  | _ :: _,[] => unsupportedSql "primitive Parquet row group has extra columns"
  | [],_ :: _ => unsupportedSql "primitive Parquet row group ended early"
  | _ :: fields,(column,columnType) :: columns =>
    match column.values,columnType with
    | .i32 _,.i32 | .i64 _,.i64 => writeColumns fields columns
    | _,_ => unsupportedSql "primitive Parquet column type mismatch"

def writeBatch (writer : PrimitiveParquetFileWriter) (batch : PrimitiveBatch) : Result PrimitiveParquetFileWriter :=
  match primitiveParquetColumns batch with
  | none => unsupportedSql "primitive Parquet writer received unsupported batch"
  | some columns =>
    if columns ≠ writer.columns then unsupportedSql "primitive Parquet writer schema changed"
    else if batch.isEmpty then .ok writer
    else
      (writeColumns writer.writer.schema (batch.columns.zip writer.columns)).map fun _ =>
        { writer with writer := { writer.writer with rows := writer.writer.rows ++ batch.rows } }

end PrimitiveParquetFileWriter

structure ParquetFileQuerySink where
  writer : Option ArrowWriter
  primitiveWriter : Option PrimitiveParquetFileWriter
  primitiveSchema : Option Schema
  options : ParquetCopyOptions

/-- What is in the file at the end. A file of no bytes is no Parquet file. -/
inductive FileContent
  | noBytes
  | parquet (schema : Schema) (rows : List Row)
deriving DecidableEq

namespace ParquetFileQuerySink

def new (options : ParquetCopyOptions) : ParquetFileQuerySink := ⟨none,none,none,options⟩

def writeParquetBatch (sink : ParquetFileQuerySink) (batch : RecordBatch) : Result ParquetFileQuerySink :=
  if sink.primitiveWriter.isSome then unsupportedSql "cannot mix RecordBatch writes after primitive Parquet writer started"
  else if batch.numRows = 0 then .ok sink
  else
    match sink.writer with
    | none => .ok { sink with writer := some ((ArrowWriter.mk batch.schema []).write batch) }
    | some writer => .ok { sink with writer := some (writer.write batch) }

def writeConverted (sink : ParquetFileQuerySink) (batch : PrimitiveBatch) : Result ParquetFileQuerySink :=
  match sink.primitiveSchema with
  | some schema =>
    if batch.matchesSchema schema then (batch.intoRecordBatchWithSchema schema).bind sink.writeParquetBatch
    else (batch.intoRecordBatchWithSchema batch.schema).bind { sink with primitiveSchema := some batch.schema }.writeParquetBatch
  | none => (batch.intoRecordBatchWithSchema batch.schema).bind { sink with primitiveSchema := some batch.schema }.writeParquetBatch

def writePrimitiveBatch (env : PrimitiveSinkEnv) (sink : ParquetFileQuerySink) (batch : PrimitiveBatch) : Result ParquetFileQuerySink :=
  match sink.primitiveWriter with
  | some writer => (writer.writeBatch batch).map fun writer => { sink with primitiveWriter := some writer }
  | none =>
    if sink.writer.isNone && primitiveParquetSinkEnabled env batch && !batch.isEmpty then
      (PrimitiveParquetFileWriter.tryNew sink.options batch).bind fun
        | some writer => (writer.writeBatch batch).map fun writer => { sink with primitiveWriter := some writer }
        | none => sink.writeConverted batch
    else sink.writeConverted batch

def finishParquet (sink : ParquetFileQuerySink) : FileContent :=
  match sink.primitiveWriter with
  | some writer => .parquet writer.writer.schema writer.writer.rows
  | none =>
    match sink.writer with
    | some writer => .parquet writer.schema writer.rows
    | none => .noBytes

end ParquetFileQuerySink

inductive SinkCall
  | batch (data : RecordBatch)
  | primitive (data : PrimitiveBatch)

namespace SinkCall

def schema : SinkCall → Schema
  | .batch data => data.schema
  | .primitive data => data.schema

def rows : SinkCall → List Row
  | .batch data => data.rows
  | .primitive data => data.rows

def apply (env : PrimitiveSinkEnv) (sink : ParquetFileQuerySink) : SinkCall → Result ParquetFileQuerySink
  | .batch data => sink.writeParquetBatch data
  | .primitive data => sink.writePrimitiveBatch env data

/-- All calls and `finish`. -/
def run (env : PrimitiveSinkEnv) (options : ParquetCopyOptions) (calls : List SinkCall) : Result FileContent :=
  (calls.foldlM (apply env) (.new options)).map ParquetFileQuerySink.finishParquet

end SinkCall
end Dodam.Copy
