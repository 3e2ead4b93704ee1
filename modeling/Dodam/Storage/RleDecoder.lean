import Dodam.Execution.Error
import Dodam.Foundation.HybridRuns
import Dodam.Foundation.Machine

/-! # The decoder of repeated and bit-packed runs

The page cursors decode levels and dictionary ids with a decoder that holds the run it is in.
Values are taken one by one, in batches, in blocks, or skipped.
-/
namespace Dodam.Storage
open Foundation Execution

def byteAt (data : List UInt8) (index : ℕ) : ℕ := (data.getD index 0).toNat

/-- The cast of a 32-bit id to a signed number. -/
def asI32 (id : ℕ) : ℤ := wrapSigned 32 id

def widthMask (bitWidth : ℕ) : ℕ := if bitWidth = 32 then 2 ^ 32 - 1 else 1 <<< bitWidth - 1

def dictionaryIdBlock : ℕ := 64

section Varint

/-- A number of at most ten bytes; its bits beyond 64 are lost. -/
def readVarintFrom : List UInt8 → ℕ → ℕ → ℕ → Result (Option ℕ × ℕ)
  | [], pos, _, _ => .ok (none,pos)
  | byte :: bytes, pos, shift, value =>
    let value := value ||| (byte &&& 0x7f).toNat <<< shift % 2 ^ 64
    if byte &&& 0x80 = 0 then .ok (some value,pos + 1)
    else if 64 ≤ shift + 7 then parquetGeneral "parquet rle varint overflow"
    else readVarintFrom bytes (pos + 1) (shift + 7) value

/-- The number at a position, none when the data ends before it does, and the position behind it. -/
def readHybridVarint (data : List UInt8) (pos : ℕ) : Result (Option ℕ × ℕ) :=
  readVarintFrom (data.drop pos) pos 0 0

end Varint

section Lanes

/-- The ids that `lanes` gives for groups of `stride` bytes. -/
def chunksFrom (lanes : ℕ → List ℕ) (stride : ℕ) : ℕ → ℕ → List ℕ
  | 0, _ => []
  | groups + 1, pos => lanes pos ++ chunksFrom lanes stride groups (pos + stride)

def sevenBitLanes (data : List UInt8) (pos : ℕ) : List ℕ :=
  let word := leWord ((data.drop pos).take 7)
  [word &&& 0x7f,word >>> 7 &&& 0x7f,word >>> 14 &&& 0x7f,word >>> 21 &&& 0x7f,
    word >>> 28 &&& 0x7f,word >>> 35 &&& 0x7f,word >>> 42 &&& 0x7f,word >>> 49 &&& 0x7f]

def twelveBitLanes (data : List UInt8) (pos : ℕ) : List ℕ :=
  let b0 := byteAt data pos
  let b1 := byteAt data (pos + 1)
  let b2 := byteAt data (pos + 2)
  [(b0 ||| (b1 &&& 0x0f) <<< 8) &&& 0x0fff,(b1 >>> 4 ||| b2 <<< 4) &&& 0x0fff]

def wholeBytes (count : ℕ) (data : List UInt8) (pos : ℕ) : List ℕ := [leNat ((data.drop pos).take count)]

end Lanes

structure SimpleRleBitpackedDecoder where
  data : List UInt8
  bitWidth : ℕ
  pos : ℕ := 0
  rleRemaining : ℕ := 0
  rleValue : ℕ := 0
  bitpackRemaining : ℕ := 0
  bitpackBitOffset : ℕ := 0
  bitpackEnd : ℕ := 0

namespace SimpleRleBitpackedDecoder

def new (data : List UInt8) (bitWidth : ℕ) : SimpleRleBitpackedDecoder where
  data := data
  bitWidth := bitWidth

variable (d : SimpleRleBitpackedDecoder)

/-- The bits of a value one by one, from bit `bit` on. -/
def readBits : ℕ → ℕ → ℕ → Result ℕ
  | 0, _, value => .ok value
  | count + 1, bit, value =>
    let absoluteBit := d.bitpackBitOffset + bit
    let byteIndex := absoluteBit / 8
    if d.bitpackEnd ≤ byteIndex then parquetGeneral "not enough data to read parquet bit-packed value"
    else readBits count (bit + 1) (value ||| (byteAt d.data byteIndex >>> (absoluteBit % 8) &&& 1) <<< bit)

def advanceBits : SimpleRleBitpackedDecoder := { d with bitpackBitOffset := d.bitpackBitOffset + d.bitWidth }

def readBitpackedValue : Result (ℕ × SimpleRleBitpackedDecoder) :=
  if d.bitWidth = 0 then .ok (0,d)
  else
    let byteIndex := d.bitpackBitOffset / 8
    let bitIndex := d.bitpackBitOffset % 8
    let neededBits := bitIndex + d.bitWidth
    let bytes := min (d.bitpackEnd - byteIndex) 8
    if neededBits ≤ 64 ∧ byteIndex < d.bitpackEnd ∧ neededBits ≤ bytes * 8 then
      let word := leWord ((d.data.drop byteIndex).take bytes)
      .ok (word >>> bitIndex &&& widthMask d.bitWidth,d.advanceBits)
    else (d.readBits d.bitWidth 0 0).map fun value => (value,d.advanceBits)

/-- Loads the run at the position, unless the data ends there. -/
def reloadRun : Result (Bool × SimpleRleBitpackedDecoder) :=
  (readHybridVarint d.data d.pos).bind fun
    | (none,pos) => .ok (false,{ d with pos := pos })
    | (some header,pos) =>
      if header &&& 1 = 0 then
        let bytes := (d.bitWidth + 7) / 8
        if d.data.length < pos + bytes then parquetGeneral "not enough data to read parquet rle value"
        else .ok (true,{ d with
          rleRemaining := header >>> 1
          rleValue := leWord ((d.data.drop pos).take bytes)
          pos := pos + bytes })
      else
        let groups := header >>> 1
        let bitpackEnd := pos + (groups * 8 * d.bitWidth + 7) / 8
        if d.data.length < bitpackEnd then parquetGeneral "not enough data to read parquet bit-packed values"
        else .ok (true,{ d with
          pos := pos
          bitpackRemaining := groups * 8
          bitpackBitOffset := pos * 8
          bitpackEnd := bitpackEnd })

/-- Counts values of the bit-packed run; behind its last one the next run starts. -/
def countBitpacked (len : ℕ) : SimpleRleBitpackedDecoder :=
  { d with
    bitpackRemaining := d.bitpackRemaining - len
    pos := if d.bitpackRemaining - len = 0 then d.bitpackEnd else d.pos }

def nextValueLoop : ℕ → SimpleRleBitpackedDecoder → Result (Option ℕ × SimpleRleBitpackedDecoder)
  | 0, d => .ok (none,d)
  | fuel + 1, d =>
    if 0 < d.rleRemaining then .ok (some d.rleValue,{ d with rleRemaining := d.rleRemaining - 1 })
    else if 0 < d.bitpackRemaining then d.readBitpackedValue.map fun (value,d) => (some value,d.countBitpacked 1)
    else d.reloadRun.bind fun (loaded,d) => if loaded then nextValueLoop fuel d else .ok (none,d)

/-- Every run that is loaded takes a byte of the data, which bounds the turns of the loop. -/
def nextValue : Result (Option ℕ × SimpleRleBitpackedDecoder) := nextValueLoop (d.data.length + 1) d

def skipValuesLoop : ℕ → ℕ → SimpleRleBitpackedDecoder → Result SimpleRleBitpackedDecoder
  | 0, _, d => .ok d
  | fuel + 1, values, d =>
    if values = 0 then .ok d
    else if 0 < d.rleRemaining then
      let skipped := min d.rleRemaining values
      skipValuesLoop fuel (values - skipped) { d with rleRemaining := d.rleRemaining - skipped }
    else if 0 < d.bitpackRemaining then
      let skipped := min d.bitpackRemaining values
      skipValuesLoop fuel (values - skipped)
        ({ d with bitpackBitOffset := d.bitpackBitOffset + skipped * d.bitWidth }.countBitpacked skipped)
    else d.reloadRun.bind fun (loaded,d) => if loaded then skipValuesLoop fuel values d else .ok d

def skipValues (values : ℕ) : Result SimpleRleBitpackedDecoder :=
  skipValuesLoop (values + d.data.length + 1) values d

/-- Values of the bit-packed run read one by one. -/
def readBitpackedValues : ℕ → SimpleRleBitpackedDecoder → Result (List ℕ × SimpleRleBitpackedDecoder)
  | 0, d => .ok ([],d)
  | len + 1, d => d.readBitpackedValue.bind fun (value,d) =>
      (readBitpackedValues len d).map fun (values,d) => (value :: values,d)

/-- The widths with a faster way, from a byte boundary on and while the data reaches far enough. -/
def readBitpackedI32BatchFast (len : ℕ) : Result (Option (List ℕ × SimpleRleBitpackedDecoder)) :=
  if d.bitpackBitOffset % 8 ≠ 0 ∨ len = 0 then .ok none
  else
    let bytePos := d.bitpackBitOffset / 8
    match d.bitWidth with
    | 0 => .ok (some (List.replicate len 0,d))
    | 8 =>
      if d.bitpackEnd < bytePos + len then .ok none
      else .ok (some (((d.data.drop bytePos).take len).map UInt8.toNat,
        { d with bitpackBitOffset := d.bitpackBitOffset + len * 8 }))
    | 7 =>
      if d.bitpackEnd < bytePos + (len * 7 + 7) / 8 then .ok none
      else
        let groups := len / 8
        (readBitpackedValues (len % 8) { d with bitpackBitOffset := d.bitpackBitOffset + groups * 56 }).map
          fun (values,d') => some (chunksFrom (sevenBitLanes d.data) 7 groups bytePos ++ values,d')
    | 16 =>
      if d.bitpackEnd < bytePos + len * 2 then .ok none
      else .ok (some (chunksFrom (wholeBytes 2 d.data) 2 len bytePos,
        { d with bitpackBitOffset := d.bitpackBitOffset + len * 2 * 8 }))
    | 12 =>
      if d.bitpackEnd < bytePos + (len * 12 + 7) / 8 then .ok none
      else
        let pairs := len / 2
        let last := if len % 2 ≠ 0 then (twelveBitLanes d.data (bytePos + pairs * 3)).take 1 else []
        .ok (some (chunksFrom (twelveBitLanes d.data) 3 pairs bytePos ++ last,
          { d with bitpackBitOffset := d.bitpackBitOffset + len * 12 }))
    | 32 =>
      if d.bitpackEnd < bytePos + len * 4 then .ok none
      else .ok (some (chunksFrom (wholeBytes 4 d.data) 4 len bytePos,
        { d with bitpackBitOffset := d.bitpackBitOffset + len * 4 * 8 }))
    | _ => .ok none

def readBitpackedI32Batch (len : ℕ) : Result (List ℕ × SimpleRleBitpackedDecoder) :=
  (d.readBitpackedI32BatchFast len).bind fun
    | some (values,d) => .ok (values,d)
    | none => readBitpackedValues len d

/-- The number of decoded values, the output with the values behind it, and the decoder. -/
def decodeI32BatchLoop : ℕ → ℕ → ℕ → List ℤ → SimpleRleBitpackedDecoder →
    Result (ℕ × List ℤ × SimpleRleBitpackedDecoder)
  | 0, _, decoded, output, d => .ok (decoded,output,d)
  | fuel + 1, values, decoded, output, d =>
    if values = 0 then .ok (decoded,output,d)
    else if 0 < d.rleRemaining then
      let len := min d.rleRemaining values
      decodeI32BatchLoop fuel (values - len) (decoded + len)
        (output ++ List.replicate len (asI32 d.rleValue)) { d with rleRemaining := d.rleRemaining - len }
    else if 0 < d.bitpackRemaining then
      let len := min d.bitpackRemaining values
      (d.readBitpackedI32Batch len).bind fun (ids,d) =>
        decodeI32BatchLoop fuel (values - len) (decoded + len)
          (output ++ ids.map asI32) (d.countBitpacked len)
    else d.reloadRun.bind fun (loaded,d) =>
      if loaded then decodeI32BatchLoop fuel values decoded output d else .ok (decoded,output,d)

def decodeI32Batch (values : ℕ) (output : List ℤ) : Result (ℕ × List ℤ × SimpleRleBitpackedDecoder) :=
  decodeI32BatchLoop (values + d.data.length + 1) values 0 output d

def decodeNextBlockLoop : ℕ → SimpleRleBitpackedDecoder → Result (List ℕ × SimpleRleBitpackedDecoder)
  | 0, d => .ok ([],d)
  | count + 1, d => d.nextValue.bind fun
      | (none,d) => .ok ([],d)
      | (some value,d) => (decodeNextBlockLoop count d).map fun (ids,d) => (value :: ids,d)

def decodeNextBlock : Result (List ℕ × SimpleRleBitpackedDecoder) := decodeNextBlockLoop dictionaryIdBlock d

end SimpleRleBitpackedDecoder
end Dodam.Storage
