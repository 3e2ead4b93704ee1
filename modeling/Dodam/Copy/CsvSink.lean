import Dodam.Copy.CsvWriter
import Dodam.Execution.Filter.Reading
import Dodam.Foundation.KeyedRuns

/-! # The CSV sink

A sink takes batches, results of queries, and rows of a join that are given by indices into the
arrays of its inputs.
-/
namespace Dodam.Copy
open Foundation Execution

structure CsvFileQuerySink where
  header : Bool
  wroteHeader : Bool
  discard : Bool
  written : List UInt8

inductive CsvOutput
  | scan (batches : List CsvBatch)
  | aggregate (batches : List CsvBatch)
  | explain

/-- The rows of a join: every row takes its integer from `left` and its text from one of `rightArrays`. -/
structure I32Utf8Rows where
  left : List (Option Int32)
  leftIndices : List UInt32
  rightArrays : List (List (Option (List UInt8)))
  rightBatchIndices : List ℕ
  rightRowIndices : List UInt32

namespace CsvFileQuerySink

def new (path : String) (header : Bool) : CsvFileQuerySink := ⟨header,false,path = "/dev/null",[]⟩

def write (sink : CsvFileQuerySink) (bytes : List UInt8) : CsvFileQuerySink := { sink with written := sink.written ++ bytes }

def writeHeader (sink : CsvFileQuerySink) (line : List UInt8) : CsvFileQuerySink :=
  if sink.header && !sink.wroteHeader then { sink.write line with wroteHeader := true } else sink

def writeCsvBatch (sink : CsvFileQuerySink) (batch : CsvBatch) : Result CsvFileQuerySink :=
  if sink.discard then (batch.columns.mapM (CsvColumn.tryFromArray batch.numRows)).map fun _ => sink
  else
    let sink := sink.writeHeader ([commaByte].intercalate (batch.fieldNames.map writeCsvBytes) ++ [lineFeed])
    if batch.numRows = 0 then .ok sink
    else
      (batch.columns.mapM (CsvColumn.tryFromArray batch.numRows)).map fun columns => sink.write (csvRows columns batch.numRows)

def writeOutput (sink : CsvFileQuerySink) : CsvOutput → Result CsvFileQuerySink
  | .scan batches | .aggregate batches => batches.foldlM writeCsvBatch sink
  | .explain => unsupportedSql "COPY TO does not support EXPLAIN output"

end CsvFileQuerySink

section Rows

/-- `array.value(index)`, which panics behind the end. -/
def readCell {α : Type} (array : List (Option α)) (index : UInt32) : Result (Option α) :=
  okOr array[index.toNat]? (.error .panicked)

def idPayload : List UInt8 := "id,payload\n".toList.map Char.toUInt8

def idHeader : List UInt8 := "id\n".toList.map Char.toUInt8

namespace I32Utf8Rows
variable (rows : I32Utf8Rows)

def noNulls : Bool := nullCount rows.left = 0 && rows.rightArrays.all fun array => nullCount array = 0

def cells (entry : (UInt32 × ℕ) × UInt32) : Result (Option Int32 × Option (List UInt8)) := do
  let value ← readCell rows.left entry.1.1
  let right ← okOr rows.rightArrays[entry.1.2]? (unsupportedSql "join build row reference is out of range")
  let text ← readCell right entry.2
  return (value,text)

def entries : List ((UInt32 × ℕ) × UInt32) := (rows.leftIndices.zip rows.rightBatchIndices).zip rows.rightRowIndices

/-- A row, of which the cells are not looked at for NULL where there is none. -/
def writeRow (cells : Option Int32 × Option (List UInt8)) : List UInt8 :=
  if rows.noNulls then decimalBytes (cells.1.getD 0).toInt ++ [commaByte] ++ cells.2.getD [] ++ [lineFeed]
  else (cells.1.elim [] fun value => decimalBytes value.toInt) ++ [commaByte] ++ cells.2.getD [] ++ [lineFeed]

end I32Utf8Rows

namespace CsvFileQuerySink

def writeI32Utf8Rows (sink : CsvFileQuerySink) (rows : I32Utf8Rows) : Result CsvFileQuerySink :=
  if rows.leftIndices.length ≠ rows.rightBatchIndices.length ∨ rows.leftIndices.length ≠ rows.rightRowIndices.length then
    unsupportedSql "mismatched direct CSV join row indices"
  else
    let sink := sink.writeHeader idPayload
    if sink.discard then .ok sink
    else (rows.entries.mapM rows.cells).map fun cells => sink.write (cells.flatMap rows.writeRow)

def writeI32Row (noNulls : Bool) (cell : Option Int32) : List UInt8 :=
  if noNulls then decimalBytes (cell.getD 0).toInt ++ [lineFeed]
  else (cell.elim [] fun value => decimalBytes value.toInt) ++ [lineFeed]

def writeI32Rows (sink : CsvFileQuerySink) (array : List (Option Int32)) (indices : List UInt32) : Result CsvFileQuerySink :=
  let sink := sink.writeHeader idHeader
  if sink.discard then .ok sink
  else (indices.mapM (readCell array)).map fun cells => sink.write (cells.flatMap (writeI32Row (nullCount array = 0)))

end CsvFileQuerySink

end Rows

inductive CsvCall
  | writeBatch (batch : CsvBatch)
  | writeOutput (output : CsvOutput)
  | writeI32Utf8Rows (rows : I32Utf8Rows)
  | writeI32Rows (array : List (Option Int32)) (indices : List UInt32)

def CsvFileQuerySink.call (sink : CsvFileQuerySink) : CsvCall → Result CsvFileQuerySink
  | .writeBatch batch => sink.writeCsvBatch batch
  | .writeOutput output => sink.writeOutput output
  | .writeI32Utf8Rows rows => sink.writeI32Utf8Rows rows
  | .writeI32Rows array indices => sink.writeI32Rows array indices

end Dodam.Copy

/-! ## What a CSV sink writes

Every call writes the header line of the first call, if it is wanted and still
missing, and its rows; the rows of a join without any quotes. The file is the one
of the schema and the rows, each field as it is written by itself, just where the
first call names the columns of the schema and no text of a join needs quotes.
-/
namespace Dodam.Copy
open Foundation Execution

section Meaning

def I32Utf8Rows.texts (rows : I32Utf8Rows) : List (List (List UInt8)) :=
  rows.entries.map fun entry => [(cellAt rows.left entry.1.1.toNat).elim [] fun value => decimalBytes value.toInt,
    (rows.rightArrays[entry.1.2]?.bind fun array => cellAt array entry.2.toNat).getD []]

def CsvOutput.batches : CsvOutput → List CsvBatch
  | .scan batches | .aggregate batches => batches
  | .explain => []

namespace CsvCall

def directRows : CsvCall → List (List (List UInt8))
  | writeBatch _ | writeOutput _ => []
  | writeI32Utf8Rows rows => rows.texts
  | writeI32Rows array indices =>
    indices.map fun index => [(cellAt array index.toNat).elim [] fun value => decimalBytes value.toInt]

def batches : CsvCall → List CsvBatch
  | writeBatch batch => [batch]
  | writeOutput output => output.batches
  | writeI32Utf8Rows _ | writeI32Rows _ _ => []

def records (call : CsvCall) : List (List (List UInt8)) := call.batches.flatMap CsvBatch.records ++ call.directRows

/-- The names of columns of which a call would write the header. -/
def headers : CsvCall → List (List (List UInt8))
  | writeBatch batch => [batch.fieldNames]
  | writeOutput output => output.batches.map CsvBatch.fieldNames
  | writeI32Utf8Rows _ => [[[105,100],[112,97,121,108,111,97,100]]]
  | writeI32Rows _ _ => [[[105,100]]]

/-- The batches have the columns, and the rows of a join as many of them as they have fields. -/
def HasSchema (names : List (List UInt8)) : CsvCall → Prop
  | writeBatch batch => batch.fieldNames = names
  | writeOutput output => ∀ batch ∈ output.batches, batch.fieldNames = names
  | writeI32Utf8Rows _ => names.length = 2
  | writeI32Rows _ _ => names.length = 1

end CsvCall

def expectedCsv (header : Bool) (names : List (List UInt8)) (records : List (List (List UInt8))) : List UInt8 :=
  (if header then csvLine names else []) ++ records.flatMap csvLine

end Meaning

open CsvCall

section Lines

inductive CsvRow
  | written (texts : List (List UInt8))
  | direct (texts : List (List UInt8))

def CsvRow.texts : CsvRow → List (List UInt8)
  | written texts => texts
  | direct texts => texts

def CsvRow.line : CsvRow → List UInt8
  | written texts => csvLine texts
  | direct texts => [commaByte].intercalate texts ++ [lineFeed]

def CsvRow.NeedsNoQuotes : CsvRow → Prop
  | written _ => True
  | direct texts => ∀ text ∈ texts, csvBytesNeedQuote text = false

def CsvCall.rows (call : CsvCall) : List CsvRow :=
  (call.batches.flatMap CsvBatch.records).map .written ++ call.directRows.map .direct

/-- What a sink writes of headers and rows: the first header where one is wanted and missing, and all rows. -/
structure Wrote (sink : CsvFileQuerySink) (headers : List (List (List UInt8))) (rows : List CsvRow)
    (after : CsvFileQuerySink) : Prop where
  discard_eq : after.discard = sink.discard
  header_eq : after.header = sink.header
  wroteHeader_eq : after.wroteHeader = (sink.wroteHeader || (sink.header && !headers.isEmpty))
  written_eq : after.written = sink.written ++
    (if sink.header && !sink.wroteHeader then headers.head?.elim [] csvLine else []) ++ rows.flatMap CsvRow.line
  rows_nil : headers = [] → rows = []

variable {sink middle after : CsvFileQuerySink} {headers headers' : List (List (List UInt8))} {rows rows' : List CsvRow}

theorem Wrote.refl (sink : CsvFileQuerySink) : Wrote sink [] [] sink where
  discard_eq := rfl
  header_eq := rfl
  wroteHeader_eq := by simp
  written_eq := by simp
  rows_nil _ := rfl

theorem Wrote.trans (h : Wrote sink headers rows middle) (h' : Wrote middle headers' rows' after) :
    Wrote sink (headers ++ headers') (rows ++ rows') after where
  discard_eq := h'.discard_eq.trans h.discard_eq
  header_eq := h'.header_eq.trans h.header_eq
  wroteHeader_eq := by
    rw [h'.wroteHeader_eq,h.wroteHeader_eq,h.header_eq]
    cases headers with
    | nil => simp
    | cons names headers =>
      cases hheader : sink.header with
      | false => simp
      | true => simp
  written_eq := by
    rw [h'.written_eq,h.written_eq,h.wroteHeader_eq,h.header_eq]
    cases headers with
    | nil =>
      rw [h.rows_nil rfl]
      simp
    | cons names headers =>
      cases hheader : sink.header with
      | false => simp
      | true =>
        cases hwrote : sink.wroteHeader with
        | false => simp
        | true => simp
  rows_nil hnil := by
    obtain ⟨hl,hr⟩ := List.append_eq_nil_iff.mp hnil
    rw [h.rows_nil hl,h'.rows_nil hr]
    rfl

theorem wrote_write (names : List (List UInt8)) (rows : List CsvRow) :
    Wrote sink [names] rows ((sink.writeHeader (csvLine names)).write (rows.flatMap CsvRow.line)) where
  discard_eq := by
    unfold CsvFileQuerySink.writeHeader CsvFileQuerySink.write
    split_ifs
    · rfl
    · rfl
  header_eq := by
    unfold CsvFileQuerySink.writeHeader CsvFileQuerySink.write
    split_ifs
    · rfl
    · rfl
  wroteHeader_eq := by
    unfold CsvFileQuerySink.writeHeader CsvFileQuerySink.write
    split_ifs with h
    · simp_all
    · cases hheader : sink.header with
      | false => simp
      | true => simp_all
  written_eq := by
    unfold CsvFileQuerySink.writeHeader CsvFileQuerySink.write
    split_ifs with h
    · rfl
    · simp
  rows_nil h := by cases h

theorem write_nil (sink : CsvFileQuerySink) : sink.write [] = sink := by
  unfold CsvFileQuerySink.write
  rw [List.append_nil]

theorem flatMap_of_mapM {α β γ ε : Type} {f : α → Except ε β} {g : β → List γ} {k : α → List γ}
    (hstep : ∀ a b, f a = .ok b → g b = k a) {l : List α} {r : List β} (h : l.mapM f = .ok r) : r.flatMap g = l.flatMap k := by
  have hall := mapM_ok_iff.mp h
  clear h
  induction hall with
  | nil => rfl
  | cons hab _ ih => rw [List.flatMap_cons,List.flatMap_cons,ih,hstep _ _ hab]

theorem wrote_batch {batch : CsvBatch} (hdiscard : sink.discard = false) (h : sink.writeCsvBatch batch = .ok after) :
    Wrote sink [batch.fieldNames] (batch.records.map .written) after := by
  have hrows : ∀ {bytes}, bytes = batch.records.flatMap csvLine →
      bytes = (batch.records.map CsvRow.written).flatMap CsvRow.line := by
    rintro _ rfl
    rw [List.flatMap_map]
    rfl
  unfold CsvFileQuerySink.writeCsvBatch at h
  rw [hdiscard,if_neg Bool.false_ne_true] at h
  split_ifs at h with hzero
  · cases h
    have hnone : batch.records = [] := by
      unfold CsvBatch.records
      rw [hzero]
      rfl
    have hwrote := @wrote_write sink batch.fieldNames []
    rw [List.flatMap_nil,write_nil] at hwrote
    rw [hnone]
    exact hwrote
  · obtain ⟨columns,hcolumns,rfl⟩ := map_eq_ok_iff.mp h
    have hall := mapM_ok_iff.mp hcolumns
    have hbytes : csvRows columns batch.numRows = batch.records.flatMap csvLine := by
      have hwritten : writeCsvRecordBatch batch = .ok (csvRows columns batch.numRows) := by
        unfold writeCsvRecordBatch
        rw [if_neg hzero,hcolumns]
        rfl
      have hsupported : ∀ column ∈ batch.columns, column.Supported := by
        intro column hcolumn
        obtain ⟨prepared,-,hprepared⟩ := exists_of_forall₂_left hall hcolumn
        cases column with
        | other dataType length =>
          unfold CsvColumn.tryFromArray unsupportedSql at hprepared
          cases hprepared
        | _ => trivial
      exact Except.ok.inj (hwritten.symm.trans (writeCsvRecordBatch_eq hsupported))
    rw [hrows hbytes]
    exact wrote_write batch.fieldNames _

theorem wrote_batches {batches : List CsvBatch} (hdiscard : sink.discard = false)
    (h : batches.foldlM CsvFileQuerySink.writeCsvBatch sink = .ok after) :
    Wrote sink (batches.map CsvBatch.fieldNames) ((batches.flatMap CsvBatch.records).map .written) after := by
  induction batches generalizing sink with
  | nil =>
    cases h
    exact Wrote.refl _
  | cons batch batches ih =>
    rw [List.foldlM_cons] at h
    obtain ⟨middle,hmiddle,h⟩ := bind_eq_ok_iff.mp h
    have hfirst := wrote_batch hdiscard hmiddle
    have hrest := ih (hfirst.discard_eq.trans hdiscard) h
    rw [List.flatMap_cons,List.map_append]
    exact hfirst.trans hrest

variable {index : UInt32}

theorem readCell_eq_ok {α : Type} {array : List (Option α)} {cell : Option α} :
    readCell array index = .ok cell ↔ array[index.toNat]? = some cell :=
  okOr_eq_ok nofun

theorem cellAt_of_readCell {α : Type} {array : List (Option α)} {cell : Option α}
    (h : readCell array index = .ok cell) : cellAt array index.toNat = cell := by
  unfold cellAt
  rw [readCell_eq_ok.mp h]
  rfl

theorem getD_eq_elim {left : List (Option Int32)} {cell : Option Int32} (hnull : nullCount left = 0)
    (h : readCell left index = .ok cell) :
    decimalBytes (cell.getD 0).toInt = cell.elim [] fun value => decimalBytes value.toInt := by
  obtain ⟨hlt,hcell⟩ := List.getElem?_eq_some_iff.mp (readCell_eq_ok.mp h)
  obtain ⟨value,hvalue⟩ := cellAt_of_nullCount hnull hlt
  rw [← cellAt_of_readCell h,hvalue]
  rfl

theorem writeRow_eq {rows : I32Utf8Rows} {entry : (UInt32 × ℕ) × UInt32} {cells : Option Int32 × Option (List UInt8)}
    (h : rows.cells entry = .ok cells) :
    rows.writeRow cells = CsvRow.line (.direct [(cellAt rows.left entry.1.1.toNat).elim [] fun value => decimalBytes value.toInt,
      (rows.rightArrays[entry.1.2]?.bind fun array => cellAt array entry.2.toNat).getD []]) := by
  obtain ⟨value,hvalue,h⟩ := bind_eq_ok_iff.mp h
  obtain ⟨right,hright,h⟩ := bind_eq_ok_iff.mp h
  obtain ⟨text,htext,h⟩ := bind_eq_ok_iff.mp h
  cases h
  have harray : rows.rightArrays[entry.1.2]? = some right := (okOr_eq_ok fun _ h => by cases h).mp hright
  have hline : rows.writeRow (value,text) =
      (value.elim [] fun value => decimalBytes value.toInt) ++ [commaByte] ++ text.getD [] ++ [lineFeed] := by
    unfold I32Utf8Rows.writeRow
    split_ifs with hnull
    · have hleft : nullCount rows.left = 0 := by
        simpa using (Bool.and_eq_true_iff.mp hnull).1
      rw [getD_eq_elim hleft hvalue]
    · rfl
  rw [hline,harray,Option.bind_some,cellAt_of_readCell hvalue,cellAt_of_readCell htext]
  simp [CsvRow.line]

theorem wrote_pairs {rows : I32Utf8Rows} (hdiscard : sink.discard = false) (h : sink.writeI32Utf8Rows rows = .ok after) :
    Wrote sink [[[105,100],[112,97,121,108,111,97,100]]] (rows.texts.map .direct) after := by
  unfold CsvFileQuerySink.writeI32Utf8Rows at h
  split_ifs at h with hlength
  · unfold unsupportedSql at h
    cases h
  · have hheader : idPayload = csvLine [[105,100],[112,97,121,108,111,97,100]] := by decide
    dsimp only at h
    have hwrites : (sink.writeHeader idPayload).discard = false := by
      rw [hheader]
      exact ((@wrote_write sink [[105,100],[112,97,121,108,111,97,100]] []).discard_eq).trans hdiscard
    rw [hwrites,if_neg Bool.false_ne_true] at h
    obtain ⟨cells,hcells,rfl⟩ := map_eq_ok_iff.mp h
    have hbytes : cells.flatMap rows.writeRow = (rows.texts.map CsvRow.direct).flatMap CsvRow.line := by
      unfold I32Utf8Rows.texts
      rw [List.map_map,List.flatMap_map]
      exact flatMap_of_mapM (fun entry cells hentry => writeRow_eq hentry) hcells
    rw [hbytes,hheader]
    exact wrote_write _ _

theorem wrote_integers {array : List (Option Int32)} {indices : List UInt32} (hdiscard : sink.discard = false)
    (h : sink.writeI32Rows array indices = .ok after) :
    Wrote sink [[[105,100]]] ((writeI32Rows array indices).directRows.map .direct) after := by
  have hheader : idHeader = csvLine [[105,100]] := by decide
  unfold CsvFileQuerySink.writeI32Rows at h
  dsimp only at h
  have hwrites : (sink.writeHeader idHeader).discard = false := by
    rw [hheader]
    exact ((@wrote_write sink [[105,100]] []).discard_eq).trans hdiscard
  rw [hwrites,if_neg Bool.false_ne_true] at h
  obtain ⟨cells,hcells,rfl⟩ := map_eq_ok_iff.mp h
  have hbytes : cells.flatMap (CsvFileQuerySink.writeI32Row (nullCount array = 0)) =
      ((writeI32Rows array indices).directRows.map CsvRow.direct).flatMap CsvRow.line := by
    unfold directRows
    rw [List.map_map,List.flatMap_map]
    refine flatMap_of_mapM (fun index cell hcell => ?_) hcells
    have hline : CsvFileQuerySink.writeI32Row (nullCount array = 0) cell =
        (cell.elim [] fun value => decimalBytes value.toInt) ++ [lineFeed] := by
      unfold CsvFileQuerySink.writeI32Row
      split_ifs with hnull
      · rw [getD_eq_elim (of_decide_eq_true hnull) hcell]
      · rfl
    rw [hline,← cellAt_of_readCell hcell]
    simp [CsvRow.line]
  rw [hbytes,hheader]
  exact wrote_write _ _

theorem wrote_call {call : CsvCall} (hdiscard : sink.discard = false) (h : sink.call call = .ok after) :
    Wrote sink call.headers call.rows after := by
  cases call with
  | writeBatch batch =>
    have hrows : (writeBatch batch).rows = batch.records.map .written := by simp [rows,batches,directRows]
    rw [hrows]
    exact wrote_batch hdiscard h
  | writeOutput output =>
    have hrows : (writeOutput output).rows = (output.batches.flatMap CsvBatch.records).map .written := by
      simp [rows,batches,directRows]
    rw [hrows]
    cases output with
    | scan batches => exact wrote_batches hdiscard h
    | aggregate batches => exact wrote_batches hdiscard h
    | explain =>
      cases h
  | writeI32Utf8Rows rows => exact wrote_pairs hdiscard h
  | writeI32Rows array indices => exact wrote_integers hdiscard h

theorem wrote_calls {calls : List CsvCall} (hdiscard : sink.discard = false)
    (h : calls.foldlM CsvFileQuerySink.call sink = .ok after) :
    Wrote sink (calls.flatMap CsvCall.headers) (calls.flatMap CsvCall.rows) after := by
  induction calls generalizing sink with
  | nil =>
    cases h
    exact Wrote.refl _
  | cons call calls ih =>
    rw [List.foldlM_cons] at h
    obtain ⟨middle,hmiddle,h⟩ := bind_eq_ok_iff.mp h
    have hfirst := wrote_call hdiscard hmiddle
    exact hfirst.trans (ih (hfirst.discard_eq.trans hdiscard) h)

end Lines

open CsvRow

section Expected
variable {calls : List CsvCall}

theorem records_eq (calls : List CsvCall) : calls.flatMap records = (calls.flatMap rows).map texts := by
  rw [List.map_flatMap]
  refine List.flatMap_congr fun call _ => ?_
  unfold records rows
  rw [List.map_append,List.map_map,List.map_map]
  have hwritten : texts ∘ written = id := rfl
  have hdirect : texts ∘ direct = id := rfl
  rw [hwritten,hdirect,List.map_id,List.map_id]

theorem length_writeCsvBytes (value : List UInt8) :
    value.length ≤ (writeCsvBytes value).length ∧
      ((writeCsvBytes value).length = value.length ↔ csvBytesNeedQuote value = false) := by
  cases hneed : csvBytesNeedQuote value with
  | false =>
    rw [writeCsvBytes_of_plain hneed]
    exact ⟨le_rfl,by simp⟩
  | true =>
    have hlonger : value.length + 2 ≤ (writeCsvBytes value).length := by
      unfold writeCsvBytes
      rw [hneed]
      simp only [Bool.not_true,Bool.false_eq_true,if_false,List.length_cons,List.length_append,List.length_nil]
      have hdouble : value.length ≤ (value.flatMap fun byte => if byte = quoteByte then [quoteByte,quoteByte] else [byte]).length := by
        clear hneed
        induction value with
        | nil => exact le_rfl
        | cons byte value ih =>
          rw [List.flatMap_cons,List.length_append,List.length_cons]
          split_ifs
          · simp only [List.length_cons,List.length_nil]
            omega
          · simp only [List.length_cons,List.length_nil]
            omega
      omega
    refine ⟨by omega,?_⟩
    simp only [Bool.true_eq_false,iff_false]
    omega

theorem length_commas (texts : List (List UInt8)) :
    ([commaByte].intercalate texts).length = (texts.map List.length).sum + (texts.length - 1) := by
  induction texts with
  | nil => rfl
  | cons text texts ih =>
    cases texts with
    | nil => simp
    | cons next texts =>
      rw [List.intercalate_cons_cons,List.length_append,List.length_append,ih]
      simp only [List.map_cons,List.sum_cons,List.length_cons,List.length_nil]
      omega

theorem length_line (row : CsvRow) :
    row.line.length ≤ (csvLine row.texts).length ∧ (row.line.length = (csvLine row.texts).length ↔ row.NeedsNoQuotes) := by
  cases row with
  | written texts => exact ⟨le_rfl,iff_of_true rfl trivial⟩
  | direct texts =>
    have hline : (direct texts).line.length = (texts.map List.length).sum + (texts.length - 1) + 1 := by
      unfold line
      rw [List.length_append,length_commas]
      rfl
    have hcsv : (csvLine texts).length = (texts.map fun text => (writeCsvBytes text).length).sum + (texts.length - 1) + 1 := by
      unfold csvLine csvFields
      rw [List.length_append,length_commas,List.map_map,List.length_map]
      rfl
    obtain ⟨hle,heq⟩ := @sum_le_and_eq_iff _ List.length (fun text => (writeCsvBytes text).length) texts fun text _ =>
      (length_writeCsvBytes text).1
    have htexts : (direct texts).texts = texts := rfl
    rw [htexts,hline,hcsv]
    refine ⟨by omega,?_⟩
    have hsum : (texts.map List.length).sum + (texts.length - 1) + 1 =
        (texts.map fun text => (writeCsvBytes text).length).sum + (texts.length - 1) + 1 ↔
          (texts.map List.length).sum = (texts.map fun text => (writeCsvBytes text).length).sum := by omega
    rw [hsum,heq]
    refine forall_congr' fun text => forall_congr' fun _ => ?_
    rw [eq_comm]
    exact (length_writeCsvBytes text).2

theorem line_of_needsNoQuotes {row : CsvRow} (h : row.NeedsNoQuotes) : row.line = csvLine row.texts := by
  cases row with
  | written texts => rfl
  | direct texts =>
    have hplain : texts.map writeCsvBytes = texts :=
      (List.map_congr_left fun text htext => writeCsvBytes_of_plain (h text htext)).trans (List.map_id texts)
    unfold CsvRow.line CsvRow.texts csvLine csvFields
    rw [hplain]

theorem lines_eq_iff {rows : List CsvRow} :
    rows.flatMap CsvRow.line = (rows.map CsvRow.texts).flatMap csvLine ↔ ∀ row ∈ rows, row.NeedsNoQuotes := by
  rw [List.flatMap_map]
  constructor
  · intro h row hrow
    have hlength := congrArg List.length h
    rw [List.length_flatMap,List.length_flatMap] at hlength
    have hall := (sum_le_and_eq_iff fun row _ => (length_line row).1).2.mp hlength
    exact (length_line row).2.mp (hall row hrow)
  · intro h
    exact List.flatMap_congr fun row hrow => line_of_needsNoQuotes (h row hrow)

theorem rows_needNoQuotes {calls : List CsvCall} : (∀ row ∈ calls.flatMap rows, row.NeedsNoQuotes) ↔
    ∀ call ∈ calls, ∀ row ∈ call.directRows, ∀ text ∈ row, csvBytesNeedQuote text = false := by
  constructor
  · intro h call hcall row hrow
    exact h (.direct row) (List.mem_flatMap.mpr ⟨call,hcall,List.mem_append_right _ (List.mem_map.mpr ⟨row,hrow,rfl⟩)⟩)
  · intro h row hrow
    obtain ⟨call,hcall,hrow⟩ := List.mem_flatMap.mp hrow
    rcases List.mem_append.mp hrow with hrow | hrow
    · obtain ⟨texts,-,rfl⟩ := List.mem_map.mp hrow
      trivial
    · obtain ⟨texts,htexts,rfl⟩ := List.mem_map.mp hrow
      exact h call hcall texts htexts

variable {names header : List (List UInt8)}

theorem headers_of_schema {call : CsvCall} (h : call.HasSchema names)
    (hheader : header ∈ call.headers) : header = names ∨ header ≠ [] ∧ names ≠ [] := by
  cases call with
  | writeBatch batch => exact Or.inl ((List.mem_singleton.mp hheader).trans h)
  | writeOutput output =>
    obtain ⟨batch,hbatch,rfl⟩ := List.mem_map.mp hheader
    exact Or.inl (h batch hbatch)
  | writeI32Utf8Rows rows =>
    rw [List.mem_singleton.mp hheader]
    exact Or.inr ⟨List.cons_ne_nil _ _,List.ne_nil_of_length_pos (Nat.lt_of_lt_of_eq Nat.two_pos h.symm)⟩
  | writeI32Rows array indices =>
    rw [List.mem_singleton.mp hheader]
    exact Or.inr ⟨List.cons_ne_nil _ _,List.ne_nil_of_length_pos (Nat.lt_of_lt_of_eq Nat.one_pos h.symm)⟩

theorem header_append_eq {a b : List UInt8} (h : header = names ∨ header ≠ [] ∧ names ≠ []) :
    csvLine header ++ a = csvLine names ++ b ↔ header = names ∧ a = b := by
  constructor
  · intro heq
    rcases h with rfl | ⟨hheader,hnames⟩
    · exact ⟨rfl,List.append_cancel_left heq⟩
    · unfold csvLine at heq
      rw [List.append_assoc,List.append_assoc] at heq
      obtain ⟨-,hsame,hrest⟩ := csvLine_unique lineFeedCsv_plain (csvRecord_csvFields hheader) (csvRecord_csvFields hnames) heq
      exact ⟨hsame,hrest⟩
  · rintro ⟨rfl,rfl⟩
    rfl

/-- A run writes the file of the schema and its rows just where its first header is that of the schema and no row of a
join needs quotes. -/
theorem csvSink_writes_iff {path : String} {header : Bool} {names : List (List UInt8)} {calls : List CsvCall}
    {sink : CsvFileQuerySink} (hpath : path ≠ "/dev/null") (hschema : ∀ call ∈ calls, call.HasSchema names)
    (hrun : calls.foldlM CsvFileQuerySink.call (.new path header) = .ok sink) :
    sink.written = expectedCsv header names (calls.flatMap CsvCall.records) ↔
      (header = true → (calls.flatMap CsvCall.headers).head? = some names) ∧
        ∀ call ∈ calls, ∀ row ∈ call.directRows, ∀ text ∈ row, csvBytesNeedQuote text = false := by
  have hwrote := wrote_calls (decide_eq_false hpath) hrun
  have hwritten := hwrote.written_eq
  rw [← rows_needNoQuotes,← lines_eq_iff,← records_eq]
  cases header with
  | false =>
    have hlines : sink.written = (calls.flatMap rows).flatMap line := hwritten
    rw [hlines]
    exact (and_iff_right fun h => absurd h Bool.false_ne_true).symm
  | true =>
    cases hfirst : (calls.flatMap headers) with
    | nil =>
      rw [hfirst,hwrote.rows_nil hfirst] at hwritten
      have hempty : sink.written = [] := hwritten
      refine iff_of_false (fun h => ?_) fun h => absurd (h.1 rfl) nofun
      rw [hempty] at h
      have hline := (List.append_eq_nil_iff.mp h.symm).1
      exact absurd (List.append_eq_nil_iff.mp hline).2 (List.cons_ne_nil _ _)
    | cons first others =>
      rw [hfirst] at hwritten
      have hlines : sink.written = csvLine first ++ (calls.flatMap rows).flatMap line := hwritten
      have hmem : first ∈ calls.flatMap headers := by
        rw [hfirst]
        exact List.mem_cons_self ..
      obtain ⟨call,hcall,hheader⟩ := List.mem_flatMap.mp hmem
      rw [hlines]
      refine (header_append_eq (headers_of_schema (hschema call hcall) hheader)).trans (and_congr_left fun _ => ?_)
      exact ⟨fun h _ => congrArg some h,fun h => Option.some_inj.mp (h rfl)⟩

end Expected

section Samples

def sampleJoinRows (text : List UInt8) : CsvCall := .writeI32Utf8Rows ⟨[some 1],[0],[[some text]],[0],[0]⟩

/-- The rows of a join have a header of their own, and a comma in them stands without quotes. -/
theorem csvSink_bypasses_quotes :
    (∃ sink, [sampleJoinRows [97]].foldlM CsvFileQuerySink.call (.new "out.csv" true) = .ok sink ∧
      (sampleJoinRows [97]).HasSchema [[120],[121]] ∧
      sink.written ≠ expectedCsv true [[120],[121]] ([sampleJoinRows [97]].flatMap CsvCall.records)) ∧
    ∃ sink, [sampleJoinRows [44]].foldlM CsvFileQuerySink.call (.new "out.csv" false) = .ok sink ∧
      (sampleJoinRows [44]).HasSchema [[120],[121]] ∧
      sink.written ≠ expectedCsv false [[120],[121]] ([sampleJoinRows [44]].flatMap CsvCall.records) := by
  constructor
  · exact ⟨⟨true,true,false,idPayload ++ [49,44,97,10]⟩,by rfl,rfl,by decide⟩
  · exact ⟨⟨false,false,false,[49,44,44,10]⟩,by rfl,rfl,by decide⟩

/-- With the names that are written for it, a join is written as it should be. -/
theorem csvSink_writes_join :
    (⟨true,true,false,idPayload ++ [49,44,97,10]⟩ : CsvFileQuerySink).written =
        expectedCsv true [[105,100],[112,97,121,108,111,97,100]] ([sampleJoinRows [97]].flatMap CsvCall.records) ↔
      (true = true → ([sampleJoinRows [97]].flatMap CsvCall.headers).head? = some [[105,100],[112,97,121,108,111,97,100]]) ∧
        ∀ call ∈ [sampleJoinRows [97]], ∀ row ∈ call.directRows, ∀ text ∈ row, csvBytesNeedQuote text = false := by
  have hpath : "out.csv" ≠ "/dev/null" := by decide
  apply csvSink_writes_iff hpath
  · intro call hcall
    rw [List.mem_singleton.mp hcall]
    rfl
  · rfl

end Samples
end Dodam.Copy
