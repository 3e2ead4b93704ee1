import Dodam.Storage.SelectedColumn
import Dodam.Storage.SelectedSink

/-! # Scanning numbers next to strings

A file of 32-bit integers and nullable strings is scanned for the rows whose number passes a
filter.
-/
namespace Dodam.Storage
open Foundation Execution

/-- Goes on with what was read, unless the layout is declined. -/
def thenRead {α β : Type} (result : Result (Option α)) (f : α → Result (Option β)) : Result (Option β) :=
  result.bind fun
    | none => .ok none
    | some a => f a

/-- Both are read before either is declined. -/
def bothRead {α β γ : Type} (first : Result (Option α)) (second : Result (Option β)) (f : α → β → Result (Option γ)) :
    Result (Option γ) :=
  first.bind fun a => second.bind fun b =>
    match a,b with
    | some a,some b => f a b
    | _,_ => .ok none

abbrev Bytes := List UInt8

/-- Byte arrays one after the other, each behind its length. -/
def plainByteArrays : ℕ → List UInt8 → Option (List Bytes)
  | 0,_ => some []
  | n + 1,buf =>
    let len := leNat (buf.take 4)
    if buf.length < 4 ∨ buf.length < 4 + len then none
    else (plainByteArrays n (buf.drop (4 + len))).map (((buf.drop 4).take len) :: ·)

/-- A dictionary whose bytes end early is empty. -/
def decodePlainByteArrayDictionary (buf : List UInt8) (numValues : ℕ) : List Bytes :=
  (plainByteArrays numValues buf).getD []

def ColumnPage.isDictionaryEncoded (page : ColumnPage) : Bool :=
  page.encoding = .rleDictionary ∨ page.encoding = .plainDictionary

structure RequiredPlainPrimitivePageCursor where
  pages : List ColumnPage
  values : List UInt8 := []
  valueOffset : ℕ := 0
  rowsRemaining : ℕ := 0

namespace RequiredPlainPrimitivePageCursor
variable (c : RequiredPlainPrimitivePageCursor)

def loadNextPage : Result (Option RequiredPlainPrimitivePageCursor) :=
  match c.pages with
  | [] => .ok none
  | page :: pages =>
    if !page.isPlain then .ok none
    else (pageValueStart 0 page).map fun start => start.map fun start =>
      { pages := pages, values := page.buf.drop start, rowsRemaining := page.rows }

def ensurePage : Result (Option RequiredPlainPrimitivePageCursor) :=
  if 0 < c.rowsRemaining then .ok (some c) else c.loadNextPage

def rawBytes (width records : ℕ) : Option (List UInt8) :=
  let start := c.valueOffset * width
  if c.rowsRemaining < records then none
  else if c.values.length < start + records * width then none
  else some (slice c.values start (start + records * width))

def advance (records : ℕ) : RequiredPlainPrimitivePageCursor :=
  { c with valueOffset := c.valueOffset + records, rowsRemaining := c.rowsRemaining - records }

end RequiredPlainPrimitivePageCursor

structure ByteArrayDictionaryPageCursor where
  pages : List ColumnPage
  dictionary : Option (List Bytes) := none
  defLevels : List ℤ := []
  ids : List ℤ := []
  encodedIds : Option (List UInt8) := none
  encodedValues : ℕ := 0
  rowOffset : ℕ := 0
  idOffset : ℕ := 0

/-- Where the ids of a data page start, its levels and the number of its values. -/
def cursorLevels (maxDefLevel : ℕ) : ColumnPage → Result (Option (ℕ × List ℤ × ℕ))
  | .dictionary .. => .ok none
  | .data buf numValues _ defLevelEncoding =>
    if 0 < maxDefLevel then
      if defLevelEncoding ≠ .rle then .ok none
      else (parseV1RleLevelData buf).bind fun (bytesRead,levelData) =>
        (decodeRleI16Values levelData (numRequiredBits maxDefLevel) numValues []).map fun levels =>
          if levels.length ≠ numValues then none else some (bytesRead,levels,levels.count (maxDefLevel : ℤ))
    else .ok (some (0,[],numValues))
  | .dataV2 buf numValues _ numNulls defLevelsByteLen repLevelsByteLen =>
    if buf.length < repLevelsByteLen + defLevelsByteLen then .ok none
    else if 0 < maxDefLevel then
      (decodeRleI16Values ((buf.drop repLevelsByteLen).take defLevelsByteLen) (numRequiredBits maxDefLevel) numValues []).map
        fun levels =>
          if levels.length ≠ numValues then none
          -- a page with more nulls than values agrees with no count
          else if levels.count (maxDefLevel : ℤ) + numNulls ≠ numValues then none
          else some (repLevelsByteLen + defLevelsByteLen,levels,levels.count (maxDefLevel : ℤ))
    else .ok (some (repLevelsByteLen + defLevelsByteLen,[],numValues))

namespace ByteArrayDictionaryPageCursor
variable (maxDefLevel : ℕ) (c : ByteArrayDictionaryPageCursor)

def availableRows : ℕ :=
  if c.defLevels = [] then c.encodedValues - c.rowOffset else c.defLevels.length - c.rowOffset

def clearPage : ByteArrayDictionaryPageCursor := { pages := c.pages, dictionary := c.dictionary }

/-- The ids of a column without levels are decoded when they are asked for. -/
def loadDataPage (page : ColumnPage) (pages : List ColumnPage) : Result (Option ByteArrayDictionaryPageCursor) :=
  if !page.isDictionaryEncoded then .ok none
  else
    match c.dictionary with
    | none => .ok none
    | some dictionary =>
      thenRead (cursorLevels maxDefLevel page) fun (start,levels,values) =>
        let data := page.buf.drop start
        if maxDefLevel = 0 then
          .ok (some { pages := pages, dictionary := c.dictionary, encodedIds := some data, encodedValues := values })
        else (Encoded.decodeDictionaryIndices data values dictionary.length []).map fun ids =>
          if ids.length ≠ values then none
          else some { pages := pages, dictionary := c.dictionary, defLevels := levels, ids := ids, encodedValues := values }

def loadNextDataPage : List ColumnPage → ByteArrayDictionaryPageCursor → Result (Option ByteArrayDictionaryPageCursor)
  | [],_ => .ok none
  | .dictionary buf numValues encoding :: pages,c =>
    if encoding ≠ .plain ∨ c.dictionary.isSome then .ok none
    else loadNextDataPage pages { c with dictionary := some (decodePlainByteArrayDictionary buf numValues) }
  | page :: pages,c => c.loadDataPage maxDefLevel page pages

def ensurePage : Result (Option ByteArrayDictionaryPageCursor) :=
  if 0 < c.availableRows then .ok (some c) else loadNextDataPage maxDefLevel c.pages c

def ensureIdsDecoded : Result ByteArrayDictionaryPageCursor :=
  if c.ids ≠ [] ∨ c.encodedValues = 0 then .ok c
  else
    match c.dictionary,c.encodedIds with
    | some dictionary,some encoded =>
      (Encoded.decodeDictionaryIndices encoded c.encodedValues dictionary.length c.ids).map fun ids => { c with ids := ids }
    | _,_ => .ok c

/-- The levels, the ids and the dictionary of the next rows of a page. -/
def window (records : ℕ) : Option (Option (List ℤ) × List ℤ × List Bytes) :=
  match c.dictionary with
  | none => none
  | some dictionary =>
    if c.defLevels = [] then
      if c.ids.length < c.rowOffset + records then none
      else some (none,slice c.ids c.rowOffset (c.rowOffset + records),dictionary)
    else if c.defLevels.length < c.rowOffset + records then none
    else
      let levels := slice c.defLevels c.rowOffset (c.rowOffset + records)
      let present := levels.count (maxDefLevel : ℤ)
      if c.ids.length < c.idOffset + present then none
      else some (some levels,slice c.ids c.idOffset (c.idOffset + present),dictionary)

def current (records : ℕ) :
    Result (Option (ByteArrayDictionaryPageCursor × Option (List ℤ) × List ℤ × List Bytes)) :=
  if c.availableRows < records then .ok none
  else c.ensureIdsDecoded.map fun c => (c.window maxDefLevel records).map fun window => (c,window)

def advance (records : ℕ) : ByteArrayDictionaryPageCursor :=
  if c.defLevels = [] then
    let c := { c with rowOffset := c.rowOffset + records, idOffset := c.idOffset + records }
    if c.encodedValues ≤ c.rowOffset then c.clearPage else c
  else
    let levelEnd := min (c.rowOffset + records) c.defLevels.length
    let present := (slice c.defLevels c.rowOffset levelEnd).count (maxDefLevel : ℤ)
    let c := { c with rowOffset := levelEnd, idOffset := c.idOffset + present }
    if c.defLevels.length ≤ c.rowOffset then c.clearPage else c

end ByteArrayDictionaryPageCursor

/-- A call of the consumer: numbers, dictionary ids and the dictionary. -/
abbrev SelectedCall := List ℤ × List ℤ × List Bytes

section Window
variable (predicate : ℤ → Bool) (maxDefLevel : ℕ)

/-- The selected rows that have a string; no id may be missing or left. -/
def selectPresentRows : List ℤ → List ℤ → List ℤ → Option (List ℤ × List ℤ)
  | number :: numbers,level :: levels,ids =>
    if level = maxDefLevel then
      match ids with
      | [] => none
      | id :: ids => (selectPresentRows numbers levels ids).map fun (selected,selectedIds) =>
        if predicate number then (number :: selected,id :: selectedIds) else (selected,selectedIds)
    else selectPresentRows numbers levels ids
  | _,_,ids => if ids = [] then some ([],[]) else none

def selectWindow (numbers : List ℤ) (levels : Option (List ℤ)) (ids : List ℤ) : Option (List ℤ × List ℤ) :=
  match levels with
  | some levels => selectPresentRows predicate maxDefLevel numbers levels ids
  | none =>
    if ids.length < numbers.length then none
    else some ((numbers.zip ids).filter fun row => predicate row.1).unzip

/-- What the page reader knows between two windows of rows. -/
structure PageScan where
  numbers : RequiredPlainPrimitivePageCursor
  strings : ByteArrayDictionaryPageCursor
  rowsRead : ℕ := 0
  calls : List SelectedCall := []

/-- A window is as long as both pages go on. -/
def readWindow (rowCount : ℕ) (s : PageScan) : Result (Option PageScan) :=
  bothRead s.numbers.ensurePage (s.strings.ensurePage maxDefLevel) fun numbers strings =>
    let records := min (rowCount - s.rowsRead) (min numbers.rowsRemaining strings.availableRows)
    if records = 0 then .ok none
    else
      match numbers.rawBytes 4 records with
      | none => .ok none
      | some bytes =>
        if bytes.length < records * 4 then .ok none
        else thenRead (strings.current maxDefLevel records) fun (strings,levels,ids,dictionary) =>
          .ok ((selectWindow predicate maxDefLevel (plainInts 4 bytes 0 records) levels ids).map fun (selected,selectedIds) =>
            { numbers := numbers.advance records
              strings := strings.advance maxDefLevel records
              rowsRead := s.rowsRead + records
              calls := if selected = [] then s.calls else s.calls ++ [(selected,selectedIds,dictionary)] })

def readWindows (rowCount : ℕ) : ℕ → PageScan → Result (Option PageScan)
  | 0,s => .ok (some s)
  | fuel + 1,s =>
    if s.rowsRead < rowCount then thenRead (readWindow predicate maxDefLevel rowCount s) (readWindows rowCount fuel)
    else .ok (some s)

end Window

/-- The id of a byte array in the dictionary, which gets it at its end if it has it not. -/
def dictionaryFallbackId (dictionary : List Bytes) (fallback : Bytes) : Result (ℤ × List Bytes) :=
  match dictionary.findIdx? (· = fallback) with
  | some index => if index < 2 ^ 31 then .ok (index,dictionary) else unsupportedSql "dictionary fallback id out of range"
  | none =>
    if dictionary.length < 2 ^ 31 then .ok (dictionary.length,dictionary ++ [fallback])
    else unsupportedSql "dictionary fallback id out of range"

section RowGroup

/-- Where the ids of a data page start, its levels and the number of its values, as the row-group reader finds them. -/
def rowGroupLevels (maxDefLevel : ℕ) : ColumnPage → Result (Option (ℕ × List ℤ × ℕ))
  | .dictionary .. => .ok none
  | .data buf numValues _ defLevelEncoding =>
    if 0 < maxDefLevel then
      (parseV1RleLevelData buf).bind fun (bytesRead,levelData) =>
        if defLevelEncoding ≠ .rle then .ok none
        else (decodeRleI16Values levelData (numRequiredBits maxDefLevel) numValues []).map fun levels =>
          some (bytesRead,levels,levels.count (maxDefLevel : ℤ))
    else .ok (some (0,[],numValues))
  | .dataV2 buf numValues _ numNulls defLevelsByteLen repLevelsByteLen =>
    if buf.length < repLevelsByteLen + defLevelsByteLen then .ok none
    else if 0 < maxDefLevel then
      (decodeRleI16Values ((buf.drop repLevelsByteLen).take defLevelsByteLen) (numRequiredBits maxDefLevel) numValues []).map
        fun levels =>
          if levels.count (maxDefLevel : ℤ) + numNulls ≠ numValues then none
          else some (repLevelsByteLen + defLevelsByteLen,levels,levels.count (maxDefLevel : ℤ))
    else .ok (some (repLevelsByteLen + defLevelsByteLen,[],numValues))

/-- What the row-group reader knows between two pages; the id of a NULL is -1. -/
structure SelectedIdLoop where
  pageRowStart : ℕ := 0
  cursor : List (ℕ × ℕ)
  dictionary : Option (List Bytes) := none
  selectedIds : List ℤ := []

def readIdDataPage (maxDefLevel : ℕ) (s : SelectedIdLoop) (page : ColumnPage) : Result (Option SelectedIdLoop) :=
  if !page.isDictionaryEncoded then .ok none
  else
    match s.dictionary with
    | none => .ok none
    | some dictionary =>
      let pageRowEnd := s.pageRowStart + page.rows
      let cursor := advanceRunCursor s.cursor s.pageRowStart
      if runsOverlapFrom cursor s.pageRowStart pageRowEnd then
        thenRead (rowGroupLevels maxDefLevel page) fun (start,levels,values) =>
          let data := page.buf.drop start
          (if levels = [] then
            Encoded.decodeDictionaryIndicesSelectedRanges values dictionary.length s.pageRowStart page.rows data cursor
              s.selectedIds
          else
            Encoded.decodeDictionaryIndicesSelectedNullableRanges maxDefLevel values dictionary.length s.pageRowStart page.rows
              data cursor levels s.selectedIds).map fun ids =>
            some { s with pageRowStart := pageRowEnd, cursor := cursor, selectedIds := ids }
      else .ok (some { s with pageRowStart := pageRowEnd, cursor := cursor })

def readIdPage (maxDefLevel : ℕ) (s : SelectedIdLoop) : ColumnPage → Result (Option SelectedIdLoop)
  | .dictionary buf numValues encoding =>
    if encoding ≠ .plain ∨ s.dictionary.isSome then .ok none
    else .ok (some { s with dictionary := some (decodePlainByteArrayDictionary buf numValues) })
  | page => readIdDataPage maxDefLevel s page

def readIdPages (maxDefLevel : ℕ) : List ColumnPage → SelectedIdLoop → Result (Option SelectedIdLoop)
  | [],s => .ok (some s)
  | page :: pages,s => thenRead (readIdPage maxDefLevel s page) (readIdPages maxDefLevel pages)

structure ByteArrayColumnDesc where
  physicalByteArray : Bool
  maxRepLevel : ℕ
  maxDefLevel : ℕ

/-- The ids of the rows of the runs, and the dictionary; a NULL has the id of the fallback. -/
def readByteArrayDictionaryIdsSelectedForRowGroup (column : ByteArrayColumnDesc) (pages : List ColumnPage)
    (selectedRuns : List (ℕ × ℕ)) (fallback : Bytes) : Result (Option (List ℤ × List Bytes)) :=
  if !column.physicalByteArray || column.maxRepLevel ≠ 0 || 1 < column.maxDefLevel then .ok none
  else thenRead (readIdPages column.maxDefLevel pages { cursor := selectedRuns }) fun s =>
    match s.dictionary with
    | none => .ok none
    | some dictionary => (dictionaryFallbackId dictionary fallback).map fun (fallbackId,dictionary) =>
      some (s.selectedIds.map fun id => if id < 0 then fallbackId else id,dictionary)

/-- What the column reader of the Parquet library gives for a row group. -/
structure ReadRecords where
  records : ℕ
  values : List ℤ
  levels : List ℤ
  levelCount : ℕ

structure I32ByteArrayRowGroup where
  numRows : ℕ
  numberPages : List ColumnPage
  numberRecords : ReadRecords
  stringPages : List ColumnPage

def directDefLevelsMatch (levelCount recordCount : ℕ) (required : Bool) : Bool :=
  if required then levelCount = 0 ∨ levelCount = recordCount else levelCount = recordCount

def directAllPresent (required : Bool) (levels : List ℤ) : Bool := required || levels.all (· ≠ 0)

def selectNumbers (predicate : ℤ → Bool) : ℕ → List ℤ → PendingRuns → PendingRuns
  | _,[],p => p
  | row,number :: numbers,p =>
    selectNumbers predicate (row + 1) numbers (if predicate number then p.select row 1 else p.close)

def readRowGroup (number : PrimitiveColumnDesc) (string : ByteArrayColumnDesc) (predicate : ℤ → Bool)
    (group : I32ByteArrayRowGroup) : Result (Option (List SelectedCall)) :=
  let required : Bool := number.maxDefLevel = 0
  let read := group.numberRecords
  if number.physicalType ≠ .int32 then .ok none
  else if read.records ≠ group.numRows ∨ read.values.length ≠ group.numRows ∨
      !directDefLevelsMatch read.levelCount group.numRows required ∨ !directAllPresent required read.levels then .ok none
  else
    let runs := (selectNumbers predicate 0 read.values { out := {} }).close.out
    let selectedNumbers := read.values.filter predicate
    if runs.builder.selectedRows ≠ selectedNumbers.length then .ok none
    else if runs.builder.selectedRows = 0 then .ok (some [])
    else thenRead (readByteArrayDictionaryIdsSelectedForRowGroup string group.stringPages runs.runs []) fun (ids,dictionary) =>
      if ids.length ≠ runs.builder.selectedRows then .ok none else .ok (some [(selectedNumbers,ids,dictionary)])

end RowGroup

structure I32ByteArrayFile where
  number : PrimitiveColumnDesc
  string : ByteArrayColumnDesc
  rowGroups : List I32ByteArrayRowGroup

def readRowGroups (read : I32ByteArrayRowGroup → Result (Option (List SelectedCall))) :
    List I32ByteArrayRowGroup → Result (Option (List SelectedCall))
  | [] => .ok (some [])
  | group :: groups => thenRead (read group) fun calls => thenRead (readRowGroups read groups) fun more =>
    .ok (some (calls ++ more))

/-- The calls of a consumer that takes them all. -/
def scanParquetI32ByteArraySelectedByI32PageReader (file : I32ByteArrayFile) (predicate : ℤ → Bool) :
    Result (Option (List SelectedCall)) :=
  if file.number.physicalType ≠ .int32 ∨ !file.string.physicalByteArray ∨ file.number.maxRepLevel ≠ 0 ∨
      file.string.maxRepLevel ≠ 0 ∨ file.number.maxDefLevel ≠ 0 then .ok none
  else readRowGroups
    (fun group => thenRead
      (readWindows predicate file.string.maxDefLevel group.numRows group.numRows
        { numbers := { pages := group.numberPages }, strings := { pages := group.stringPages } }) fun s => .ok (some s.calls))
    file.rowGroups

/-- The calls of a consumer that takes them all. -/
def scanParquetI32ByteArraySelectedByI32Reader (file : I32ByteArrayFile) (predicate : ℤ → Bool) :
    Result (Option (List SelectedCall)) :=
  readRowGroups (readRowGroup file.number file.string predicate) file.rowGroups

def deliveredRows (calls : List SelectedCall) : List (ℤ × Option Bytes) :=
  calls.flatMap fun (numbers,ids,dictionary) => numbers.zip (ids.map fun id => dictionary[id.toNat]?)

end Dodam.Storage

/-! ## Files of numbers and strings

A page of dictionary ids holds a string, or a NULL, for each row; a page of
another layout holds its rows all the same, but is not read. On a layout that is
read the readers come to an end, and on every other they end with what is said
of their results or not at all.
-/
namespace Dodam.Storage
open Foundation Execution

/-- What is read satisfies `P`, and a direct layout is read. -/
structure Reads {α : Type} (direct : Prop) (P : α → Prop) (result : Result (Option α)) : Prop where
  sound : ∀ a, result = .ok (some a) → P a
  complete : direct → ∃ a, result = .ok (some a)

section Reads
variable {α β : Type} {direct : Prop} {P : α → Prop} {Q : β → Prop}

theorem reads_some {a : α} (h : P a) : Reads direct P (.ok (some a)) :=
  ⟨fun _ heq => Option.some.inj (Except.ok.inj heq) ▸ h,fun _ => ⟨a,rfl⟩⟩

variable {result : Result (Option α)} {f : α → Result (Option β)}

theorem reads_not_direct (h : ¬direct) (hnone : ∀ a, result ≠ .ok (some a)) :
    Reads direct P result :=
  ⟨fun a heq => (hnone a heq).elim,fun hdirect => (h hdirect).elim⟩

theorem reads_none (h : ¬direct) : Reads direct P (.ok none) := by
  refine reads_not_direct h fun a heq => ?_
  cases heq

theorem thenRead_some (a : α) (f : α → Result (Option β)) : thenRead (.ok (some a)) f = f a := rfl

theorem thenRead_eq_some {b : β}
    (h : thenRead result f = .ok (some b)) : ∃ a, result = .ok (some a) ∧ f a = .ok (some b) := by
  obtain ⟨a,ha,hb⟩ := except_bind_eq_ok.mp h
  cases a with
  | none => cases hb
  | some a => exact ⟨a,ha,hb⟩

theorem Reads.thenRead (h : Reads direct P result)
    (hf : ∀ a, P a → Reads direct Q (f a)) : Reads direct Q (thenRead result f) := by
  constructor
  · intro b hb
    obtain ⟨a,ha,hb⟩ := thenRead_eq_some hb
    exact (hf a (h.sound a ha)).sound b hb
  · intro hdirect
    obtain ⟨a,ha⟩ := h.complete hdirect
    rw [ha,thenRead_some]
    exact (hf a (h.sound a ha)).complete hdirect

theorem Reads.both {γ : Type} {R : γ → Prop} {first : Result (Option α)} {second : Result (Option β)}
    {f : α → β → Result (Option γ)} (h : Reads direct P first) (h' : Reads direct Q second)
    (hf : ∀ a b, P a → Q b → Reads direct R (f a b)) : Reads direct R (bothRead first second f) := by
  constructor
  · intro c hc
    obtain ⟨a,ha,hc⟩ := except_bind_eq_ok.mp hc
    obtain ⟨b,hb,hc⟩ := except_bind_eq_ok.mp hc
    cases a with
    | none => cases hc
    | some a =>
      cases b with
      | none => cases hc
      | some b => exact (hf a b (h.sound a ha) (h'.sound b hb)).sound c hc
  · intro hdirect
    obtain ⟨a,ha⟩ := h.complete hdirect
    obtain ⟨b,hb⟩ := h'.complete hdirect
    obtain ⟨c,hc⟩ := (hf a b (h.sound a ha) (h'.sound b hb)).complete hdirect
    exact ⟨c,by rw [bothRead,ha,hb]; exact hc⟩

end Reads

def pageFlags (maxDefLevel : ℕ) (page : ColumnPage) (levels : List ℤ) : List Bool :=
  if maxDefLevel = 0 then List.replicate page.rows true else Encoded.presentFlags maxDefLevel levels

namespace ColumnPage

def isDictionary : ColumnPage → Bool
  | dictionary .. => true
  | _ => false

/-- A page of dictionary ids whose levels are run-length encoded. -/
def isDirectIds (maxDefLevel : ℕ) (page : ColumnPage) : Bool :=
  page.isDictionaryEncoded &&
    match page with
    | data _ _ _ defLevelEncoding => maxDefLevel = 0 ∨ defLevelEncoding = .rle
    | _ => true

end ColumnPage

/-- The strings of a page; a page of another layout has rows that are not decoded here. -/
inductive ByteArrayPageHolds (maxDefLevel : ℕ) (dictionary : Option (List Bytes)) (page : ColumnPage) :
    List (Option Bytes) → Prop
  | ids {entries : List Bytes} {start : ℕ} {levels : List ℤ} {w : UInt8} {body : List UInt8} {ids : List ℕ}
    (hencoding : page.isDictionaryEncoded) (hdictionary : dictionary = some entries)
    (hlevels : cursorLevels maxDefLevel page = .ok (some (start,levels,ids.length))) (hdata : page.buf.drop start = w :: body)
    (hw : w.toNat ≤ 32) (hbody : HybridEncodes w.toNat body ids) (hids : ∀ id ∈ ids, id < entries.length) :
    ByteArrayPageHolds maxDefLevel dictionary page
      ((rowIds (pageFlags maxDefLevel page levels) ids).map fun id => id.bind fun id => entries[id]?)
  | other {rows : List (Option Bytes)} (hlayout : page.isDirectIds maxDefLevel = false) (hdata : page.isDictionary = false)
    (hrows : rows.length = page.rows) : ByteArrayPageHolds maxDefLevel dictionary page rows

/-- The strings of a column chunk; page headers count values by 32-bit integers. -/
inductive ByteArrayColumnHolds (maxDefLevel : ℕ) : Option (List Bytes) → List ColumnPage → List (Option Bytes) → Prop
  | nil (dictionary : Option (List Bytes)) : ByteArrayColumnHolds maxDefLevel dictionary [] []
  | dictionary {before : Option (List Bytes)} {buf : List UInt8} {numValues : ℕ} {encoding : Encoding} {pages : List ColumnPage}
    {rows : List (Option Bytes)} (hsize : numValues < 2 ^ 31)
    (h : ByteArrayColumnHolds maxDefLevel (some (decodePlainByteArrayDictionary buf numValues)) pages rows) :
    ByteArrayColumnHolds maxDefLevel before (.dictionary buf numValues encoding :: pages) rows
  | data {dictionary : Option (List Bytes)} {page : ColumnPage} {pages : List ColumnPage} {first rest : List (Option Bytes)}
    (hpage : ByteArrayPageHolds maxDefLevel dictionary page first) (h : ByteArrayColumnHolds maxDefLevel dictionary pages rest) :
    ByteArrayColumnHolds maxDefLevel dictionary (page :: pages) (first ++ rest)

/-- The column reader of the library gives all values of a row group, and the levels of a column that has them. -/
structure ReadRecords.Gives (read : ReadRecords) (maxDefLevel : ℕ) (numbers : List ℤ) : Prop where
  records : read.records = numbers.length
  values : read.values = numbers
  levelCount : read.levelCount = numbers.length
  levels : maxDefLevel ≠ 0 → read.levels = List.replicate numbers.length (maxDefLevel : ℤ)

structure I32ByteArrayRowGroup.Holds (group : I32ByteArrayRowGroup) (number : PrimitiveColumnDesc) (string : ByteArrayColumnDesc)
    (rows : List (ℤ × Option Bytes)) : Prop where
  numRows : group.numRows = rows.length
  numbers : ColumnHolds number.maxDefLevel 4 none group.numberPages (rows.map Prod.fst)
  numberRecords : group.numberRecords.Gives number.maxDefLevel (rows.map Prod.fst)
  strings : ByteArrayColumnHolds string.maxDefLevel none group.stringPages (rows.map Prod.snd)

structure I32ByteArrayFile.Holds (file : I32ByteArrayFile) (rows : List (ℤ × Option Bytes)) : Prop where
  number : file.number.physicalType = .int32 ∧ file.number.maxRepLevel = 0
  string : file.string.physicalByteArray ∧ file.string.maxRepLevel = 0 ∧ file.string.maxDefLevel ≤ 1
  rowGroups : ∃ parts, List.Forall₂ (fun (group : I32ByteArrayRowGroup) part => group.Holds file.number file.string part)
    file.rowGroups parts ∧ rows = parts.flatten

def DirectNumbers (pages : List ColumnPage) : Prop := ∀ page ∈ pages, page.isPlain ∧ 0 < page.rows

/-- One plain dictionary before pages of ids with rows. -/
def DirectStrings (maxDefLevel : ℕ) : Bool → List ColumnPage → Prop
  | _,[] => True
  | hasDictionary,.dictionary _ _ encoding :: pages =>
    encoding = .plain ∧ hasDictionary = false ∧ DirectStrings maxDefLevel true pages
  | hasDictionary,page :: pages =>
    hasDictionary = true ∧ page.isDirectIds maxDefLevel ∧ 0 < page.rows ∧ DirectStrings maxDefLevel hasDictionary pages

def I32ByteArrayFile.DirectLayout (file : I32ByteArrayFile) : Prop :=
  file.number.maxDefLevel = 0 ∧
    ∀ group ∈ file.rowGroups, DirectNumbers group.numberPages ∧ DirectStrings file.string.maxDefLevel false group.stringPages

section Pages
variable {maxDefLevel : ℕ} {page : ColumnPage} {dictionary : Option (List Bytes)} {rows : List (Option Bytes)}

theorem length_plainByteArrays {n : ℕ} {buf : List UInt8} {arrays : List Bytes} (h : plainByteArrays n buf = some arrays) :
    arrays.length = n := by
  induction n generalizing buf arrays with
  | zero =>
    cases h
    rfl
  | succ n ih =>
    rw [plainByteArrays] at h
    split_ifs at h
    obtain ⟨rest,hrest,rfl⟩ := Option.map_eq_some_iff.mp h
    rw [List.length_cons,ih hrest]

theorem length_dictionary_le (buf : List UInt8) (numValues : ℕ) :
    (decodePlainByteArrayDictionary buf numValues).length ≤ numValues := by
  unfold decodePlainByteArrayDictionary
  cases h : plainByteArrays numValues buf with
  | none => exact Nat.zero_le _
  | some arrays => exact (length_plainByteArrays h).le

/-- The levels of a page, and how many of its rows have a string. -/
theorem cursorLevels_spec {start values : ℕ} {levels : List ℤ} (h : cursorLevels maxDefLevel page = .ok (some (start,levels,values))) :
    page.isDictionary = false ∧ (page.isDictionaryEncoded → page.isDirectIds maxDefLevel) ∧
      (maxDefLevel = 0 → levels = [] ∧ values = page.rows) ∧
        (maxDefLevel ≠ 0 → levels.length = page.rows ∧ values = levels.count (maxDefLevel : ℤ)) := by
  cases page with
  | dictionary => cases h
  | data buf numValues encoding defLevelEncoding =>
    rw [cursorLevels] at h
    split_ifs at h with hlevels hrle
    · cases h
    · obtain ⟨⟨bytesRead,levelData⟩,-,h⟩ := except_bind_eq_ok.mp h
      obtain ⟨decoded,-,h⟩ := except_map_eq_ok.mp h
      split_ifs at h with hlength
      cases h
      have hdirect : decide (maxDefLevel = 0 ∨ defLevelEncoding = .rle) = true := decide_eq_true (.inr (not_not.mp hrle))
      refine ⟨rfl,fun hencoded => ?_,fun hzero => absurd hzero hlevels.ne',fun _ => ⟨not_not.mp hlength,rfl⟩⟩
      simp only [ColumnPage.isDirectIds,hencoded,hdirect,Bool.and_self]
    · cases h
      have hzero : maxDefLevel = 0 := by omega
      refine ⟨rfl,fun hencoded => ?_,fun _ => ⟨rfl,rfl⟩,fun hne => absurd hzero hne⟩
      simp only [ColumnPage.isDirectIds,hencoded,hzero,true_or,decide_true,Bool.and_self]
  | dataV2 buf numValues encoding numNulls defLevelsByteLen repLevelsByteLen =>
    have hdirect : ∀ hencoded : ColumnPage.isDictionaryEncoded (.dataV2 buf numValues encoding numNulls defLevelsByteLen
        repLevelsByteLen), ColumnPage.isDirectIds maxDefLevel (.dataV2 buf numValues encoding numNulls defLevelsByteLen
        repLevelsByteLen) := fun hencoded => by simp only [ColumnPage.isDirectIds,hencoded,Bool.and_self]
    rw [cursorLevels] at h
    split_ifs at h with hshort hlevels
    · cases h
    · obtain ⟨decoded,-,h⟩ := except_map_eq_ok.mp h
      split_ifs at h with hlength hcount
      cases h
      exact ⟨rfl,hdirect,fun hzero => absurd hzero hlevels.ne',fun _ => ⟨not_not.mp hlength,rfl⟩⟩
    · cases h
      exact ⟨rfl,hdirect,fun _ => ⟨rfl,rfl⟩,fun hne => absurd (Nat.eq_zero_of_not_pos hlevels) hne⟩

theorem pageFlags_of_levels {start values : ℕ} {levels : List ℤ}
    (h : cursorLevels maxDefLevel page = .ok (some (start,levels,values))) :
    (pageFlags maxDefLevel page levels).length = page.rows ∧ (pageFlags maxDefLevel page levels).count true = values := by
  obtain ⟨-,-,hzero,hlevels⟩ := cursorLevels_spec h
  unfold pageFlags
  split_ifs with hmax
  · rw [List.length_replicate,List.count_replicate_self]
    exact ⟨rfl,(hzero hmax).2.symm⟩
  · rw [Encoded.count_presentFlags,Encoded.presentFlags,List.length_map]
    exact ⟨(hlevels hmax).1,(hlevels hmax).2.symm⟩

theorem directStrings_data {hasDictionary : Bool} {pages : List ColumnPage} (h : page.isDictionary = false) :
    DirectStrings maxDefLevel hasDictionary (page :: pages) ↔
      hasDictionary = true ∧ page.isDirectIds maxDefLevel ∧ 0 < page.rows ∧ DirectStrings maxDefLevel hasDictionary pages := by
  cases page with
  | dictionary => cases h
  | data | dataV2 => rfl

theorem cursorLevels_other (hlayout : page.isDirectIds maxDefLevel = false) (hencoded : page.isDictionaryEncoded)
    (read : ℕ × List ℤ × ℕ) : cursorLevels maxDefLevel page ≠ .ok (some read) := by
  obtain ⟨start,levels,values⟩ := read
  intro h
  rw [(cursorLevels_spec h).2.1 hencoded] at hlayout
  cases hlayout

theorem rowGroupLevels_eq {read : ℕ × List ℤ × ℕ} (h : cursorLevels maxDefLevel page = .ok (some read)) :
    rowGroupLevels maxDefLevel page = .ok (some read) := by
  cases page with
  | dictionary => cases h
  | data buf numValues encoding defLevelEncoding =>
    rw [cursorLevels] at h
    rw [rowGroupLevels]
    split_ifs at h ⊢ with hlevels hrle
    · cases h
    · obtain ⟨⟨bytesRead,levelData⟩,hparse,h⟩ := except_bind_eq_ok.mp h
      obtain ⟨decoded,hdecode,h⟩ := except_map_eq_ok.mp h
      split_ifs at h
      cases h
      exact except_bind_eq_ok.mpr ⟨_,hparse,except_map_eq_ok.mpr ⟨_,hdecode,rfl⟩⟩
    · exact h
  | dataV2 buf numValues encoding numNulls defLevelsByteLen repLevelsByteLen =>
    rw [cursorLevels] at h
    rw [rowGroupLevels]
    split_ifs at h ⊢
    · cases h
    · obtain ⟨decoded,hdecode,h⟩ := except_map_eq_ok.mp h
      split_ifs at h with hlength hcount
      cases h
      rw [hdecode]
      exact congrArg Except.ok (if_neg hcount)
    · exact h

theorem rowGroupLevels_other (hlayout : page.isDirectIds maxDefLevel = false) (hencoded : page.isDictionaryEncoded)
    (read : ℕ × List ℤ × ℕ) : rowGroupLevels maxDefLevel page ≠ .ok (some read) := by
  intro h
  cases page with
  | dictionary => cases h
  | data buf numValues encoding defLevelEncoding =>
    simp only [ColumnPage.isDirectIds,hencoded,Bool.true_and,decide_eq_false_iff_not,not_or] at hlayout
    rw [rowGroupLevels] at h
    rw [if_pos (Nat.pos_of_ne_zero hlayout.1)] at h
    obtain ⟨⟨bytesRead,levelData⟩,-,h⟩ := except_bind_eq_ok.mp h
    dsimp only at h
    rw [if_pos hlayout.2] at h
    cases h
  | dataV2 =>
    simp only [ColumnPage.isDirectIds,hencoded,Bool.and_self] at hlayout
    cases hlayout

end Pages
end Dodam.Storage
