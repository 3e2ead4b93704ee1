import Dodam.Execution.Error
import Dodam.Foundation.Csv
import Dodam.Foundation.Fold

/-! # Writing batches as CSV

A batch is written row by row, unless its columns are an Int32 column alone or in front of
texts, for which there are writers of their own.
-/
namespace Dodam.Copy
open Foundation Execution

/-- A number with a fraction, as it is printed: digits, signs, a point, or the name of what is no number. -/
structure FloatText where
  bytes : List UInt8
  plain : ∀ byte ∈ bytes, byte ≠ commaByte ∧ byte ≠ quoteByte ∧ byte ≠ carriageReturn ∧ byte ≠ lineFeed

inductive CsvArray
  | int32 (values : List (Option Int32))
  | int64 (values : List (Option Int64))
  | uint32 (values : List (Option UInt32))
  | uint64 (values : List (Option UInt64))
  | float64 (values : List (Option FloatText))
  | utf8 (values : List (Option (List UInt8)))
  | boolean (values : List (Option Bool))
  | other (dataType : String) (length : ℕ)

def CsvArray.length : CsvArray → ℕ
  | int32 values => values.length
  | int64 values => values.length
  | uint32 values => values.length
  | uint64 values => values.length
  | float64 values => values.length
  | utf8 values => values.length
  | boolean values => values.length
  | other _ length => length

structure CsvBatch where
  fieldNames : List (List UInt8)
  columns : List CsvArray
  numRows : ℕ
  names_length : fieldNames.length = columns.length
  length_eq : ∀ column ∈ columns, column.length = numRows

inductive Utf8QuoteMode
  | never
  | checkEachValue

inductive CsvColumn
  | int32 (array : List (Option Int32))
  | int64 (array : List (Option Int64))
  | uint32 (array : List (Option UInt32))
  | uint64 (array : List (Option UInt64))
  | float64 (array : List (Option FloatText))
  | utf8 (array : List (Option (List UInt8))) (quoteMode : Utf8QuoteMode)
  | boolean (array : List (Option Bool))

section Cells
variable {α : Type}

def cellAt (array : List (Option α)) (row : ℕ) : Option α := array[row]?.join

/-- `array.value(row)`, which is only asked where there is a value. -/
def valueAt (missing : α) (array : List (Option α)) (row : ℕ) : α := (cellAt array row).getD missing

def nullCount (array : List (Option α)) : ℕ := array.countP Option.isNone

end Cells

section Values

def csvBytesNeedQuote (value : List UInt8) : Bool :=
  value.any fun byte => byte = commaByte || byte = quoteByte || byte = lineFeed || byte = carriageReturn

def writeCsvBytes (value : List UInt8) : List UInt8 :=
  if !csvBytesNeedQuote value then value
  else quoteByte :: ((value.flatMap fun byte => if byte = quoteByte then [quoteByte,quoteByte] else [byte]) ++ [quoteByte])

def utf8QuoteMode (array : List (Option (List UInt8))) (rows : ℕ) : Utf8QuoteMode :=
  if (List.range rows).any fun row => (cellAt array row).any csvBytesNeedQuote then .checkEachValue else .never

def decimalBytes (n : ℤ) : List UInt8 := (toString n).toList.map Char.toUInt8

def booleanBytes (value : Bool) : List UInt8 := (if value then "true" else "false").toList.map Char.toUInt8

def CsvColumn.tryFromArray (rows : ℕ) : CsvArray → Result CsvColumn
  | .int32 array => .ok (.int32 array)
  | .int64 array => .ok (.int64 array)
  | .uint32 array => .ok (.uint32 array)
  | .uint64 array => .ok (.uint64 array)
  | .float64 array => .ok (.float64 array)
  | .utf8 array => .ok (.utf8 array (utf8QuoteMode array rows))
  | .boolean array => .ok (.boolean array)
  | .other dataType _ => unsupportedSql s!"COPY CSV does not support {dataType} columns yet"

def CsvColumn.writeValue (row : ℕ) : CsvColumn → List UInt8
  | int32 array => (cellAt array row).elim [] fun value => decimalBytes value.toInt
  | int64 array => (cellAt array row).elim [] fun value => decimalBytes value.toInt
  | uint32 array => (cellAt array row).elim [] fun value => decimalBytes value.toNat
  | uint64 array => (cellAt array row).elim [] fun value => decimalBytes value.toNat
  | float64 array => (cellAt array row).elim [] FloatText.bytes
  | utf8 array quoteMode =>
    (cellAt array row).elim [] fun value =>
      match quoteMode with
      | .never => value
      | .checkEachValue => writeCsvBytes value
  | boolean array => (cellAt array row).elim [] booleanBytes

end Values

section Specialized

def writeI32CsvBatch (array : List (Option Int32)) (rows : ℕ) : List UInt8 :=
  (List.range rows).flatMap fun row => ((cellAt array row).elim [] fun value => decimalBytes value.toInt) ++ [lineFeed]

def writeI32Utf8NoQuoteCsvBatch (left : List (Option Int32)) (right : List (Option (List UInt8))) (rows : ℕ) : List UInt8 :=
  if nullCount left = 0 ∧ nullCount right = 0 then
    (List.range rows).flatMap fun row =>
      decimalBytes (valueAt 0 left row).toInt ++ [commaByte] ++ valueAt [] right row ++ [lineFeed]
  else
    (List.range rows).flatMap fun row =>
      ((cellAt left row).elim [] fun value => decimalBytes value.toInt) ++ [commaByte] ++ (cellAt right row).getD [] ++ [lineFeed]

def writeI32Utf8CsvBatch (left : List (Option Int32)) (right : List (Option (List UInt8))) (rows : ℕ) : List UInt8 :=
  (List.range rows).flatMap fun row =>
    ((cellAt left row).elim [] fun value => decimalBytes value.toInt) ++ [commaByte] ++
      ((cellAt right row).elim [] writeCsvBytes) ++ [lineFeed]

def writeI32Utf8ColumnsNoQuoteCsvBatch (left : List (Option Int32)) (utf8Columns : List (List (Option (List UInt8))))
    (rows : ℕ) : List UInt8 :=
  if nullCount left = 0 ∧ ∀ array ∈ utf8Columns, nullCount array = 0 then
    (List.range rows).flatMap fun row =>
      decimalBytes (valueAt 0 left row).toInt ++ (utf8Columns.flatMap fun array => commaByte :: valueAt [] array row) ++ [lineFeed]
  else
    (List.range rows).flatMap fun row =>
      ((cellAt left row).elim [] fun value => decimalBytes value.toInt) ++
        (utf8Columns.flatMap fun array => commaByte :: (cellAt array row).getD []) ++ [lineFeed]

/-- The values of a column of texts that need no quotes. -/
def CsvColumn.noQuoteUtf8 : CsvColumn → Option (List (Option (List UInt8)))
  | utf8 array .never => some array
  | _ => none

/-- `write_specialized_csv_batch`, where it applies. -/
def writeSpecializedCsvBatch (columns : List CsvColumn) (rows : ℕ) : Option (List UInt8) :=
  match columns with
  | [.int32 array] => some (writeI32CsvBatch array rows)
  | [.int32 left,.utf8 right .never] => some (writeI32Utf8NoQuoteCsvBatch left right rows)
  | [.int32 left,.utf8 right .checkEachValue] => some (writeI32Utf8CsvBatch left right rows)
  | .int32 left :: rest =>
    if rest.isEmpty then none
    else (rest.mapM CsvColumn.noQuoteUtf8).map fun utf8Columns => writeI32Utf8ColumnsNoQuoteCsvBatch left utf8Columns rows
  | _ => none

end Specialized

def csvRows (columns : List CsvColumn) (rows : ℕ) : List UInt8 :=
  match writeSpecializedCsvBatch columns rows with
  | some bytes => bytes
  | none =>
    (List.range rows).flatMap fun row => [commaByte].intercalate (columns.map (CsvColumn.writeValue row)) ++ [lineFeed]

def writeCsvRecordBatch (batch : CsvBatch) : Result (List UInt8) :=
  if batch.numRows = 0 then .ok []
  else (batch.columns.mapM (CsvColumn.tryFromArray batch.numRows)).map fun columns => csvRows columns batch.numRows

end Dodam.Copy

/-! ## CSV is read back

Whatever writer is chosen, every row is one line of its field texts, each with
quotes where it needs them. The lines of the batches are read back as the rows by
the grammar of records in which all bytes but the delimiters need no quotes and a
line feed ends a line.
-/
namespace Dodam.Copy
open Foundation Execution

section Bytes

def IsDelimiter (byte : UInt8) : Prop :=
  byte = commaByte ∨ byte = quoteByte ∨ byte = carriageReturn ∨ byte = lineFeed

/-- All bytes but the delimiters stand for themselves, and a line feed alone breaks lines. -/
def lineFeedCsv : CsvDialect where
  textData byte := ¬ IsDelimiter byte
  lineBreak lineEnd := lineEnd = [lineFeed] ∨ lineEnd = [carriageReturn,lineFeed]

/-- The dialect of RFC 4180: printable ASCII and line breaks of two bytes. -/
def rfc4180 : CsvDialect where
  textData byte := 32 ≤ byte ∧ byte ≤ 126 ∧ byte ≠ quoteByte ∧ byte ≠ commaByte
  lineBreak lineEnd := lineEnd = [carriageReturn,lineFeed]

theorem lineFeedCsv_plain : lineFeedCsv.Plain where
  textData_ne byte h := by
    refine ⟨fun hb => h ?_,fun hb => h ?_,fun hb => h ?_,fun hb => h ?_⟩
    · exact Or.inl hb
    · exact Or.inr (Or.inl hb)
    · exact Or.inr (Or.inr (Or.inl hb))
    · exact Or.inr (Or.inr (Or.inr hb))
  lineBreak_cases _ h := h
  lineFeed_breaks := Or.inl rfl

variable {value : List UInt8}

theorem csvBytesNeedQuote_iff : csvBytesNeedQuote value = true ↔ ∃ byte ∈ value, IsDelimiter byte := by
  unfold csvBytesNeedQuote IsDelimiter
  rw [List.any_eq_true]
  refine exists_congr fun byte => and_congr_right fun _ => ?_
  simp only [Bool.or_eq_true,decide_eq_true_eq]
  tauto

theorem needQuote_false_iff : csvBytesNeedQuote value = false ↔ ∀ byte ∈ value, ¬ IsDelimiter byte := by
  rw [← Bool.not_eq_true,csvBytesNeedQuote_iff]
  simp

theorem writeCsvBytes_of_plain (h : csvBytesNeedQuote value = false) : writeCsvBytes value = value := by
  unfold writeCsvBytes
  rw [h]
  rfl

theorem escapedText_double (value : List UInt8) :
    EscapedText lineFeedCsv (value.flatMap fun byte => if byte = quoteByte then [quoteByte,quoteByte] else [byte]) value := by
  induction value with
  | nil => exact .nil
  | cons byte value ih =>
    rw [List.flatMap_cons]
    by_cases hquote : byte = quoteByte
    · subst hquote
      rw [if_pos rfl]
      exact .quote ih
    · rw [if_neg hquote]
      refine .plain ?_ ih
      by_cases hdelimiter : IsDelimiter byte
      · rcases hdelimiter with h | h | h | h
        · exact Or.inr (Or.inl h)
        · exact absurd h hquote
        · exact Or.inr (Or.inr (Or.inl h))
        · exact Or.inr (Or.inr (Or.inr h))
      · exact Or.inl hdelimiter

theorem csvField_writeCsvBytes (value : List UInt8) : CsvField lineFeedCsv (writeCsvBytes value) value := by
  unfold writeCsvBytes
  cases h : csvBytesNeedQuote value with
  | false => exact .plain (needQuote_false_iff.mp h)
  | true => exact .escaped (escapedText_double value)

def csvFields (texts : List (List UInt8)) : List UInt8 := [commaByte].intercalate (texts.map writeCsvBytes)

def csvLine (texts : List (List UInt8)) : List UInt8 := csvFields texts ++ [lineFeed]

theorem csvFields_cons (text next : List UInt8) (texts : List (List UInt8)) :
    csvFields (text :: next :: texts) = writeCsvBytes text ++ commaByte :: csvFields (next :: texts) := by
  unfold csvFields
  rw [List.map_cons,List.map_cons,List.intercalate_cons_cons]
  simp

theorem csvRecord_csvFields {texts : List (List UInt8)} (h : texts ≠ []) : CsvRecord lineFeedCsv (csvFields texts) texts := by
  induction texts with
  | nil => exact absurd rfl h
  | cons text texts ih =>
    cases texts with
    | nil =>
      have hone : csvFields [text] = writeCsvBytes text := by simp [csvFields]
      rw [hone]
      exact .last (csvField_writeCsvBytes text)
    | cons next texts =>
      rw [csvFields_cons]
      exact .cons (csvField_writeCsvBytes text) (ih (List.cons_ne_nil _ _))

theorem digit_not_delimiter {c : Char} (h : c.isDigit = true ∨ c = '-') : ¬ IsDelimiter c.toUInt8 := by
  rcases h with h | rfl
  · unfold Char.isDigit at h
    simp only [Bool.and_eq_true,decide_eq_true_eq,UInt32.le_iff_toNat_le] at h
    have hbyte : c.toUInt8.toNat = c.val.toNat := by
      have hlt : c.val.toNat < 256 := by
        have hle := h.2
        have h57 : ('9' : Char).val.toNat = 57 := rfl
        omega
      exact Nat.mod_eq_of_lt hlt
    have h48 : 48 ≤ c.toUInt8.toNat := by rw [hbyte]; exact h.1
    rintro (hc | hc | hc | hc)
    all_goals
      rw [hc] at h48
      exact absurd h48 (by decide)
  · unfold IsDelimiter
    decide

theorem decimalBytes_plain (n : ℤ) : csvBytesNeedQuote (decimalBytes n) = false := by
  apply needQuote_false_iff.mpr
  intro byte hbyte
  obtain ⟨c,hc,rfl⟩ := List.mem_map.mp hbyte
  apply digit_not_delimiter
  have htext : (toString n).toList = (Int.repr n).toList := rfl
  rw [htext] at hc
  cases n with
  | ofNat m =>
    have hdigits : (Int.repr (Int.ofNat m)).toList = Nat.toDigits 10 m := String.toList_ofList
    rw [hdigits] at hc
    exact Or.inl (Nat.isDigit_of_mem_toDigits (by decide) (by decide) hc)
  | negSucc m =>
    have hdigits : (Int.repr (Int.negSucc m)).toList = '-' :: Nat.toDigits 10 (m + 1) := by
      simp [Int.repr,Nat.repr]
    rw [hdigits] at hc
    rcases List.mem_cons.mp hc with rfl | hc
    · exact Or.inr rfl
    · exact Or.inl (Nat.isDigit_of_mem_toDigits (by decide) (by decide) hc)

theorem booleanBytes_plain (value : Bool) : csvBytesNeedQuote (booleanBytes value) = false := by
  cases value with
  | false => rfl
  | true => rfl

theorem floatText_plain (value : FloatText) : csvBytesNeedQuote value.bytes = false := by
  apply needQuote_false_iff.mpr
  rintro byte hbyte (h | h | h | h)
  · exact (value.plain byte hbyte).1 h
  · exact (value.plain byte hbyte).2.1 h
  · exact (value.plain byte hbyte).2.2.1 h
  · exact (value.plain byte hbyte).2.2.2 h

end Bytes

section Columns

def CsvArray.text (row : ℕ) : CsvArray → List UInt8
  | int32 array => (cellAt array row).elim [] fun value => decimalBytes value.toInt
  | int64 array => (cellAt array row).elim [] fun value => decimalBytes value.toInt
  | uint32 array => (cellAt array row).elim [] fun value => decimalBytes value.toNat
  | uint64 array => (cellAt array row).elim [] fun value => decimalBytes value.toNat
  | float64 array => (cellAt array row).elim [] FloatText.bytes
  | utf8 array => (cellAt array row).getD []
  | boolean array => (cellAt array row).elim [] booleanBytes
  | other _ _ => []

def CsvArray.Supported : CsvArray → Prop
  | other _ _ => False
  | _ => True

def CsvBatch.records (batch : CsvBatch) : List (List (List UInt8)) :=
  (List.range batch.numRows).map fun row => batch.columns.map (CsvArray.text row)

def CsvColumn.array : CsvColumn → CsvArray
  | int32 array => .int32 array
  | int64 array => .int64 array
  | uint32 array => .uint32 array
  | uint64 array => .uint64 array
  | float64 array => .float64 array
  | utf8 array _ => .utf8 array
  | boolean array => .boolean array

/-- No text needs quotes where none is looked at. -/
def CsvColumn.NeverQuoted (rows : ℕ) : CsvColumn → Prop
  | utf8 array .never => ∀ row < rows, ∀ value, cellAt array row = some value → csvBytesNeedQuote value = false
  | _ => True

theorem tryFromArray_spec {rows : ℕ} {array : CsvArray} {column : CsvColumn}
    (h : CsvColumn.tryFromArray rows array = .ok column) : column.array = array ∧ column.NeverQuoted rows := by
  unfold CsvColumn.tryFromArray at h
  cases array with
  | utf8 array =>
    cases h
    refine ⟨rfl,?_⟩
    unfold utf8QuoteMode
    split_ifs with hany
    · trivial
    · intro row hrow value hvalue
      have hnone : ((cellAt array row).any csvBytesNeedQuote) = false := by
        rw [Bool.not_eq_true,List.any_eq_false] at hany
        exact Bool.not_eq_true _ |>.mp (hany row (List.mem_range.mpr hrow))
      rw [hvalue] at hnone
      exact hnone
  | other dataType length =>
    cases h
  | _ =>
    cases h
    exact ⟨rfl,trivial⟩

theorem exists_tryFromArray {rows : ℕ} {array : CsvArray} (h : array.Supported) :
    ∃ column, CsvColumn.tryFromArray rows array = .ok column := by
  cases array with
  | other dataType length => exact absurd h id
  | _ => exact ⟨_,rfl⟩

theorem writeCsvBytes_elim {α : Type} {cell : Option α} {text : α → List UInt8} (h : ∀ value, csvBytesNeedQuote (text value) = false) :
    cell.elim [] text = writeCsvBytes (cell.elim [] text) := by
  cases cell with
  | none => rfl
  | some value => exact (writeCsvBytes_of_plain (h value)).symm

theorem writeValue_eq {rows row : ℕ} (hrow : row < rows) {column : CsvColumn} (h : column.NeverQuoted rows) :
    column.writeValue row = writeCsvBytes (column.array.text row) := by
  cases column with
  | int32 array | int64 array | uint32 array | uint64 array =>
    exact writeCsvBytes_elim fun value => decimalBytes_plain _
  | float64 array => exact writeCsvBytes_elim floatText_plain
  | boolean array => exact writeCsvBytes_elim booleanBytes_plain
  | utf8 array quoteMode =>
    unfold CsvColumn.writeValue CsvColumn.array CsvArray.text
    dsimp only
    cases hcell : cellAt array row with
    | none => rfl
    | some value =>
      cases quoteMode with
      | never => exact (writeCsvBytes_of_plain (h row hrow value hcell)).symm
      | checkEachValue => rfl

end Columns

section Writers
variable {rows : ℕ} {columns : List CsvColumn}

def csvLines (columns : List CsvColumn) (rows : ℕ) : List UInt8 :=
  (List.range rows).flatMap fun row => csvLine (columns.map fun column => column.array.text row)

theorem generic_rows (h : ∀ column ∈ columns, column.NeverQuoted rows) :
    ((List.range rows).flatMap fun row => [commaByte].intercalate (columns.map (CsvColumn.writeValue row)) ++ [lineFeed]) =
      csvLines columns rows := by
  refine List.flatMap_congr fun row hrow => ?_
  have hvalues : columns.map (CsvColumn.writeValue row) = (columns.map fun column => column.array.text row).map writeCsvBytes := by
    rw [List.map_map]
    exact List.map_congr_left fun column hcolumn => writeValue_eq (List.mem_range.mp hrow) (h column hcolumn)
  rw [hvalues]
  rfl

theorem csvFields_eq (text : List UInt8) (texts : List (List UInt8)) :
    csvFields (text :: texts) = writeCsvBytes text ++ texts.flatMap fun next => commaByte :: writeCsvBytes next := by
  induction texts generalizing text with
  | nil => simp [csvFields]
  | cons next texts ih =>
    rw [csvFields_cons,ih,List.flatMap_cons]
    simp

variable {row : ℕ} {left : List (Option Int32)} {array right : List (Option (List UInt8))}
variable {utf8Columns : List (List (Option (List UInt8)))}

theorem cellAt_of_nullCount {α : Type} {array : List (Option α)} (h : nullCount array = 0) (hrow : row < array.length) :
    ∃ value, cellAt array row = some value := by
  unfold nullCount at h
  rw [List.countP_eq_zero] at h
  have hcell := h (array[row]) (List.getElem_mem hrow)
  cases hvalue : array[row] with
  | none =>
    rw [hvalue] at hcell
    exact absurd rfl hcell
  | some value =>
    refine ⟨value,?_⟩
    unfold cellAt
    rw [List.getElem?_eq_getElem hrow,hvalue]
    rfl

theorem leading_value (h : nullCount left = 0) (hrow : row < left.length) :
    decimalBytes (valueAt 0 left row).toInt = (cellAt left row).elim [] fun value => decimalBytes value.toInt := by
  obtain ⟨value,hvalue⟩ := cellAt_of_nullCount h hrow
  unfold valueAt
  rw [hvalue]
  rfl

theorem text_value : valueAt [] array row = (cellAt array row).getD [] := rfl

theorem leading_written (left : List (Option Int32)) (row : ℕ) :
    ((cellAt left row).elim [] fun value => decimalBytes value.toInt) = writeCsvBytes (CsvArray.text row (.int32 left)) :=
  writeCsvBytes_elim fun _ => decimalBytes_plain _

theorem never_written (h : (CsvColumn.utf8 array .never).NeverQuoted rows)
    (hrow : row < rows) : (cellAt array row).getD [] = writeCsvBytes (CsvArray.text row (.utf8 array)) := by
  have hvalue : (CsvColumn.utf8 array .never).writeValue row = writeCsvBytes (CsvArray.text row (.utf8 array)) := writeValue_eq hrow h
  rw [← hvalue]
  unfold CsvColumn.writeValue
  dsimp only
  cases cellAt array row with
  | none => rfl
  | some value => rfl

theorem checked_written (array : List (Option (List UInt8))) (row : ℕ) :
    ((cellAt array row).elim [] writeCsvBytes) = writeCsvBytes (CsvArray.text row (.utf8 array)) := by
  unfold CsvArray.text
  dsimp only
  cases cellAt array row with
  | none => rfl
  | some value => rfl

theorem ite_rows {p : Prop} [Decidable p] {fast slow line : ℕ → List UInt8}
    (hfast : p → ∀ row < rows, fast row = line row) (hslow : ∀ row < rows, slow row = line row) :
    (if p then (List.range rows).flatMap fast else (List.range rows).flatMap slow) = (List.range rows).flatMap line := by
  split_ifs with h
  · exact List.flatMap_congr fun row hrow => hfast h row (List.mem_range.mp hrow)
  · exact List.flatMap_congr fun row hrow => hslow row (List.mem_range.mp hrow)

theorem noQuote_rows (hleft : left.length = rows)
    (hnever : ∀ array ∈ utf8Columns, (CsvColumn.utf8 array .never).NeverQuoted rows) :
    writeI32Utf8ColumnsNoQuoteCsvBatch left utf8Columns rows =
      (List.range rows).flatMap fun row => csvLine (CsvArray.text row (.int32 left) :: utf8Columns.map fun array => CsvArray.text row (.utf8 array)) := by
  have htexts : ∀ row < rows, (utf8Columns.flatMap fun array => commaByte :: (cellAt array row).getD []) =
      (utf8Columns.map fun array => CsvArray.text row (.utf8 array)).flatMap fun next => commaByte :: writeCsvBytes next := by
    intro row hrow
    rw [List.flatMap_map]
    exact List.flatMap_congr fun array harray => congrArg _ (never_written (hnever array harray) hrow)
  refine ite_rows (fun hnull row hrow => ?_) fun row hrow => ?_
  · rw [leading_value hnull.1 (hleft ▸ hrow),leading_written]
    simp only [text_value]
    rw [htexts row hrow,← csvFields_eq]
    rfl
  · rw [leading_written,htexts row hrow,← csvFields_eq]
    rfl

theorem csvFields_pair (first second : List UInt8) :
    csvFields [first,second] = writeCsvBytes first ++ [commaByte] ++ writeCsvBytes second := by
  rw [csvFields_eq,List.flatMap_cons,List.flatMap_nil]
  simp

theorem noQuote_row (hleft : left.length = rows)
    (hnever : (CsvColumn.utf8 right .never).NeverQuoted rows) :
    writeI32Utf8NoQuoteCsvBatch left right rows = csvLines [.int32 left,.utf8 right .never] rows := by
  have hline : ∀ row, csvLine ([CsvColumn.int32 left,.utf8 right .never].map fun column => column.array.text row) =
      writeCsvBytes (CsvArray.text row (.int32 left)) ++ [commaByte] ++ writeCsvBytes (CsvArray.text row (.utf8 right)) ++
        [lineFeed] := fun row => congrArg (· ++ [lineFeed]) (csvFields_pair _ _)
  unfold writeI32Utf8NoQuoteCsvBatch csvLines
  simp only [hline]
  refine ite_rows (fun hnull row hrow => ?_) fun row hrow => ?_
  · rw [leading_value hnull.1 (hleft ▸ hrow),leading_written,text_value,never_written hnever hrow]
  · rw [leading_written,never_written hnever hrow]

theorem checked_row :
    writeI32Utf8CsvBatch left right rows = csvLines [.int32 left,.utf8 right .checkEachValue] rows := by
  refine List.flatMap_congr fun row _ => ?_
  rw [leading_written,checked_written]
  exact congrArg (· ++ [lineFeed]) (csvFields_pair _ _).symm

theorem integer_rows {array : List (Option Int32)} : writeI32CsvBatch array rows = csvLines [.int32 array] rows := by
  refine List.flatMap_congr fun row _ => ?_
  rw [leading_written]
  have hone : csvFields [CsvArray.text row (.int32 array)] = writeCsvBytes (CsvArray.text row (.int32 array)) := by
    rw [csvFields_eq]
    exact List.append_nil _
  exact congrArg (· ++ [lineFeed]) hone.symm

theorem noQuoteUtf8_eq_some {column : CsvColumn} (h : column.noQuoteUtf8 = some array) :
    column = .utf8 array .never := by
  unfold CsvColumn.noQuoteUtf8 at h
  split at h
  · cases h
    rfl
  · cases h

theorem noQuote_columns {rest : List CsvColumn}
    (h : rest.mapM CsvColumn.noQuoteUtf8 = some utf8Columns) : rest = utf8Columns.map fun array => CsvColumn.utf8 array .never := by
  have hall := mapM_eq_some_iff.mp h
  clear h
  induction hall with
  | nil => rfl
  | cons hcolumn _ ih => rw [List.map_cons,← ih,noQuoteUtf8_eq_some hcolumn]

theorem csvRows_eq (h : ∀ column ∈ columns, column.NeverQuoted rows) (hlength : ∀ column ∈ columns, column.array.length = rows) :
    csvRows columns rows = csvLines columns rows := by
  unfold csvRows
  split
  · next bytes hbytes =>
    unfold writeSpecializedCsvBatch at hbytes
    split at hbytes
    · cases hbytes
      exact integer_rows
    · cases hbytes
      exact noQuote_row (hlength _ (List.mem_cons_self ..)) (h _ (List.mem_cons_of_mem _ (List.mem_cons_self ..)))
    · cases hbytes
      exact checked_row
    · next left rest _ _ _ =>
      split_ifs at hbytes with hempty
      obtain ⟨utf8Columns,htexts,rfl⟩ := Option.map_eq_some_iff.mp hbytes
      have hrest := noQuote_columns htexts
      rw [noQuote_rows (hlength _ (List.mem_cons_self ..)) fun array harray => ?_]
      · refine List.flatMap_congr fun row _ => ?_
        rw [hrest,List.map_cons,List.map_map]
        rfl
      · apply h
        rw [hrest]
        exact List.mem_cons_of_mem _ (List.mem_map.mpr ⟨array,harray,rfl⟩)
    · cases hbytes
  · exact generic_rows h

end Writers

section Batch

theorem writeCsvRecordBatch_eq {batch : CsvBatch} (h : ∀ column ∈ batch.columns, column.Supported) :
    writeCsvRecordBatch batch = .ok (batch.records.flatMap csvLine) := by
  unfold writeCsvRecordBatch CsvBatch.records
  split_ifs with hrows
  · rw [hrows]
    rfl
  · obtain ⟨columns,hcolumns⟩ : ∃ columns, batch.columns.mapM (CsvColumn.tryFromArray batch.numRows) = .ok columns :=
      exists_mapM_ok fun column hcolumn => exists_tryFromArray (h column hcolumn)
    rw [hcolumns]
    have hspec := mapM_ok_iff.mp hcolumns
    have harrays : columns.map CsvColumn.array = batch.columns := by
      have hall := hspec.imp fun _ _ hcolumn => (tryFromArray_spec hcolumn).1.symm
      rw [← List.forall₂_map_right_iff,List.forall₂_eq_eq_eq] at hall
      exact hall.symm
    have heq : csvRows columns batch.numRows = csvLines columns batch.numRows := by
      refine csvRows_eq (fun column hcolumn => ?_) fun column hcolumn => ?_
      · obtain ⟨array,-,harray⟩ := exists_of_forall₂_right hspec hcolumn
        exact (tryFromArray_spec harray).2
      · obtain ⟨array,hmem,harray⟩ := exists_of_forall₂_right hspec hcolumn
        rw [(tryFromArray_spec harray).1]
        exact batch.length_eq array hmem
    have hlines : csvLines columns batch.numRows =
        ((List.range batch.numRows).map fun row => batch.columns.map (CsvArray.text row)).flatMap csvLine := by
      rw [List.flatMap_map,← harrays]
      refine List.flatMap_congr fun row _ => ?_
      rw [List.map_map]
      rfl
    rw [← hlines,← heq]
    rfl

/-- The rows are read back, and nothing else, where every record has at least two fields. -/
theorem writeCsvRecordBatch_readBack {batches : List CsvBatch}
    (hsupported : ∀ batch ∈ batches, ∀ column ∈ batch.columns, column.Supported)
    (hwide : ∀ batch ∈ batches, 2 ≤ batch.columns.length) :
    ∃ written, batches.mapM writeCsvRecordBatch = .ok written ∧
      ∀ records, (CsvFile lineFeedCsv written.flatten records ∧ ∀ record ∈ records, 2 ≤ record.length) ↔
        records = batches.flatMap CsvBatch.records := by
  have hfields : ∀ record ∈ batches.flatMap CsvBatch.records, 2 ≤ record.length := by
    intro record hrecord
    obtain ⟨batch,hbatch,hrecord⟩ := List.mem_flatMap.mp hrecord
    obtain ⟨row,-,rfl⟩ := List.mem_map.mp hrecord
    rw [List.length_map]
    exact hwide batch hbatch
  have hwritten : batches.mapM writeCsvRecordBatch = .ok (batches.map fun batch => batch.records.flatMap csvLine) := by
    apply mapM_ok_iff.mpr
    rw [List.forall₂_map_right_iff,List.forall₂_same]
    exact fun batch hbatch => writeCsvRecordBatch_eq (hsupported batch hbatch)
  refine ⟨_,hwritten,fun records => ?_⟩
  have hbytes : (batches.map fun batch => batch.records.flatMap csvLine).flatten =
      ((batches.flatMap CsvBatch.records).map csvFields).flatMap fun line => line ++ [lineFeed] := by
    rw [List.flatMap_map,List.flatMap_assoc,List.flatMap_def]
    rfl
  have hlines : List.Forall₂ (CsvRecord lineFeedCsv) ((batches.flatMap CsvBatch.records).map csvFields)
      (batches.flatMap CsvBatch.records) := by
    rw [List.forall₂_map_left_iff,List.forall₂_same]
    intro record hrecord
    have htwo := hfields record hrecord
    refine csvRecord_csvFields fun hnil => ?_
    rw [hnil] at htwo
    exact absurd htwo (by decide)
  rw [hbytes,csvFile_lines lineFeedCsv_plain hlines]
  constructor
  · rintro ⟨rfl | rfl,hrecords⟩
    · rfl
    · have htwo := hrecords [[]] (List.mem_append_right _ (List.mem_singleton_self _))
      exact absurd htwo (by decide)
  · rintro rfl
    exact ⟨Or.inl rfl,hfields⟩

end Batch

section Samples

/-- One row of an integer and a text that needs quotes. -/
def sampleCsvBatch (text : List UInt8) : CsvBatch where
  fieldNames := [[105],[116]]
  columns := [.int32 [some 1],.utf8 [some text]]
  numRows := 1
  names_length := rfl
  length_eq := by
    intro column hcolumn
    rcases List.mem_cons.mp hcolumn with rfl | hcolumn
    · rfl
    · rw [List.mem_singleton.mp hcolumn]
      rfl

theorem writeCsvRecordBatch_readBack_quote : ∃ written, [sampleCsvBatch [44,34,10]].mapM writeCsvRecordBatch = .ok written ∧
    ∀ records, (CsvFile lineFeedCsv written.flatten records ∧ ∀ record ∈ records, 2 ≤ record.length) ↔
      records = [sampleCsvBatch [44,34,10]].flatMap CsvBatch.records := by
  apply writeCsvRecordBatch_readBack
  · intro batch hbatch column hcolumn
    obtain rfl := List.mem_singleton.mp hbatch
    rcases List.mem_cons.mp hcolumn with rfl | hcolumn
    · trivial
    · rw [List.mem_singleton.mp hcolumn]
      trivial
  · intro batch hbatch
    obtain rfl := List.mem_singleton.mp hbatch
    exact le_rfl

variable {written : List UInt8}

theorem rfc4180_field {text : List UInt8} (h : CsvField rfc4180 written text) (hquote : quoteByte ∉ written) :
    lineFeed ∉ written := by
  cases h with
  | escaped h => exact absurd (List.mem_cons_self ..) hquote
  | plain h =>
    intro hfeed
    exact absurd (h _ hfeed).1 (by decide)

theorem rfc4180_record {record : List (List UInt8)} (h : CsvRecord rfc4180 written record)
    (hquote : quoteByte ∉ written) : lineFeed ∉ written := by
  induction h with
  | last h => exact rfc4180_field h hquote
  | cons h _ ih =>
    rw [List.mem_append,List.mem_cons,not_or,not_or] at hquote ⊢
    exact ⟨rfc4180_field h hquote.1,by decide,ih hquote.2.2⟩

theorem rfc4180_file {records : List (List (List UInt8))} (h : CsvFile rfc4180 written records)
    (hquote : quoteByte ∉ written) (hfeed : lineFeed ∈ written) : carriageReturn ∈ written := by
  cases h with
  | nil => cases hfeed
  | last h => exact absurd hfeed (rfc4180_record h hquote)
  | cons h hend hrest =>
    obtain rfl := hend
    exact List.mem_append_left _ (List.mem_append_right _ (List.mem_cons_self ..))

/-- A line that ends with a line feed alone is no record of RFC 4180. -/
theorem writeCsvRecordBatch_not_rfc4180 : ∃ written, writeCsvRecordBatch (sampleCsvBatch [97]) = .ok written ∧
    ∀ records, ¬ CsvFile rfc4180 written records := by
  refine ⟨[49,44,97,10],by decide,fun records h => ?_⟩
  exact absurd (rfc4180_file h (by decide) (by decide)) (by decide)

end Samples
end Dodam.Copy
