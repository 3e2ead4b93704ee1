import Dodam.Storage.DictionaryMatcher
import Dodam.Storage.SelectionRuns

/-! # Selection runs of an encoded dictionary page

The rows of a page whose dictionary id is selected are appended as runs, without decoding the
page into a list of ids first.
-/
namespace Dodam.Storage
open Foundation Execution

def trailingZeros (word : ℕ) : ℕ := ((List.range 64).takeWhile fun k => !word.testBit k).length

def trailingOnes (word : ℕ) : ℕ := ((List.range 64).takeWhile fun k => word.testBit k).length

/-- The position behind the last selected bit, and the rows looked at up to there. Every turn takes a
bit of the word. -/
def selectedMaskLoop (rowBase : ℕ) : ℕ → ℕ → ℕ → PendingRuns → ℕ × PendingRuns
  | 0, _, cursor, p => (cursor,p)
  | fuel + 1, selected, cursor, p =>
    if selected = 0 then (cursor,p)
    else
      let gap := trailingZeros selected
      let p := if 0 < gap then p.close else p
      let selected := selected >>> gap
      let cursor := cursor + gap
      let runLen := trailingOnes selected
      if runLen = 0 then (cursor,p)
      else
        selectedMaskLoop rowBase fuel (if 64 ≤ runLen then 0 else selected >>> runLen) (cursor + runLen)
          (p.select (rowBase + cursor) runLen)

def appendSelectedMaskAsRuns (rowBase len mask : ℕ) (p : PendingRuns) : PendingRuns :=
  if len = 0 then p
  else
    let validMask := if 64 ≤ len then 2 ^ 64 - 1 else 1 <<< len - 1
    let (cursor,p) := selectedMaskLoop rowBase 64 (mask &&& validMask) 0 p
    if cursor < len then p.close else p

/-- The mask of a block; none when an id is behind the dictionary. -/
def selectedMaskBitset (dictionaryLen : ℕ) (matcher : DictionaryIdMatcher) : List ℕ → ℕ → ℕ → Option ℕ
  | [], _, mask => some mask
  | id :: ids, index, mask =>
    if dictionaryLen ≤ id then none
    else selectedMaskBitset dictionaryLen matcher ids (index + 1) (if matcher.contains id then mask ||| 1 <<< index else mask)

def dictionaryIdBlockSelectedMaskBitset (ids : List ℕ) (dictionaryLen : ℕ) (matcher : DictionaryIdMatcher) : Option ℕ :=
  selectedMaskBitset dictionaryLen matcher ids 0 0

section Scan
variable (dictionaryLen rowOffset : ℕ)

/-- The blocks of a bit-packed run; the flag is false when the call returns in the middle of it. -/
def packedBlocks (matcher : DictionaryIdMatcher) : ℕ → ℕ → ℕ → BitpackedDictionaryIdBlockReader → PendingRuns →
    Result (Bool × PendingRuns)
  | 0, _, _, _, p => .ok (true,p)
  | fuel + 1, count, row, reader, p =>
    if count = 0 then .ok (true,p)
    else
      let blockLen := min dictionaryIdBlock count
      (reader.decodeSelectedMaskBlock blockLen dictionaryLen matcher).bind fun
        | (some mask,reader) => packedBlocks matcher fuel (count - blockLen) (row + blockLen) reader
            (appendSelectedMaskAsRuns (rowOffset + row) blockLen mask p)
        | (none,reader) => (reader.decodeBlock blockLen).bind fun (ids,reader) =>
            match dictionaryIdBlockSelectedMaskBitset ids dictionaryLen matcher with
            | none => .ok (false,p)
            | some mask => packedBlocks matcher fuel (count - blockLen) (row + blockLen) reader
                (appendSelectedMaskAsRuns (rowOffset + row) blockLen mask p)

variable (data : List UInt8) (bitWidth values rows : ℕ)

/-- The runs of a page without definition levels; every run takes a byte of the data. -/
def nonNullRuns (matcher : DictionaryIdMatcher) : ℕ → ℕ → ℕ → ℕ → PendingRuns → Result SelectedRuns
  | 0, _, _, _, p => .ok p.out
  | fuel + 1, pos, row, decoded, p =>
    if decoded < values ∧ row < rows then
      (readHybridVarint data pos).bind fun
        | (none,_) => .ok p.out
        | (some header,pos) =>
          if header &&& 1 = 0 then
            let len := min (min (header >>> 1) (values - decoded)) (rows - row)
            let bytes := (bitWidth + 7) / 8
            if data.length < pos + bytes then .ok p.out
            else
              let id := leWord ((data.drop pos).take bytes)
              if dictionaryLen ≤ id then .ok p.out
              else
                nonNullRuns matcher fuel (pos + bytes) (row + len) (decoded + len)
                  (if matcher.contains id then p.select (rowOffset + row) len else p.close)
          else
            let groups := header >>> 1
            let count := min (min (groups * 8) (values - decoded)) (rows - row)
            let bytes := (groups * 8 * bitWidth + 7) / 8
            if data.length < pos + bytes then .ok p.out
            else
              (packedBlocks dictionaryLen rowOffset matcher count count row
                (.new data pos (pos + bytes) bitWidth) p).bind fun
                | (false,p) => .ok p.out
                | (true,p) => nonNullRuns matcher fuel (pos + bytes) (row + count) (decoded + count) p
    else if decoded ≠ values ∨ row ≠ rows then .ok p.out
    else .ok p.close.out

def appendDictionaryIdSelectedRunsNonNullWithMatcher (matcher : DictionaryIdMatcher) (out : SelectedRuns) :
    Result SelectedRuns :=
  nonNullRuns dictionaryLen rowOffset data bitWidth values rows matcher (data.length + 1) 0 0 0 { out := out }

def appendDictionaryIdSelectedRunsNonNullFromEncodedFast (selected : List Bool) (out : SelectedRuns) :
    Result SelectedRuns :=
  appendDictionaryIdSelectedRunsNonNullWithMatcher dictionaryLen rowOffset data bitWidth values rows
    (.fromSelected selected) out

/-- The next id of the block that is left, or of the one decoded next; none at the end of the data. -/
def nextBlockId (d : SimpleRleBitpackedDecoder) : List ℕ → Result (Option (ℕ × List ℕ × SimpleRleBitpackedDecoder))
  | id :: block => .ok (some (id,block,d))
  | [] => d.decodeNextBlock.map fun
    | ([],_) => none
    | (id :: block,d) => some (id,block,d)

/-- The rows of a page with definition levels, one after the other. -/
def nullableRows (levels : List ℤ) (maxLevel : ℤ) (selected : List Bool) :
    ℕ → ℕ → SimpleRleBitpackedDecoder → List ℕ → ℕ → PendingRuns → Result SelectedRuns
  | 0, _, _, _, valueIndex, p => if valueIndex ≠ values then .ok p.out else .ok p.close.out
  | left + 1, row, d, block, valueIndex, p =>
    match levels[row]? with
    | none => .error .panicked
    | some level =>
      if level = maxLevel then
        (nextBlockId d block).bind fun
          | none => .ok p.out
          | some (id,block,d) =>
            if dictionaryLen ≤ id then .ok p.out
            else
              nullableRows levels maxLevel selected left (row + 1) d block (valueIndex + 1)
                (if flagAt selected id then p.select (rowOffset + row) 1 else p.close)
      else nullableRows levels maxLevel selected left (row + 1) d block valueIndex p.close

end Scan

def appendDictionaryIdSelectedRunsFromEncoded (data : List UInt8) (values dictionaryLen : ℕ)
    (defLevels : Option (List ℤ × ℤ)) (selected : List Bool) (rowOffset rows : ℕ) (out : SelectedRuns) :
    Result SelectedRuns :=
  match data with
  | [] => .ok out
  | bitWidth :: body =>
    if 32 < bitWidth.toNat then .ok out
    else
      match defLevels with
      | none => appendDictionaryIdSelectedRunsNonNullFromEncodedFast dictionaryLen rowOffset body bitWidth.toNat values
          rows selected out
      | some (levels,maxLevel) => nullableRows dictionaryLen rowOffset values levels maxLevel selected rows 0
          (.new body bitWidth.toNat) [] 0 { out := out }

end Dodam.Storage
