import Dodam.Storage.RleDecoderCorrect

/-! # Blocks of dictionary ids

The ids of a bit-packed run are read in blocks of at most 64, or matched at once
against a selection of dictionary entries, which gives a mask with a bit for each
id of the block. The vector instructions used for some widths are not modelled;
the scalar code stands for them.
-/
namespace Dodam.Storage
open Foundation Execution

inductive DictionaryIdMatcher
  | none
  | all (len : ℕ)
  | ranges (len : ℕ) (ranges : List (ℕ × ℕ))
  | bitSet (words : List ℕ)

structure DictionaryIdMatcherBuilder where
  len : ℕ := 0
  selectedCount : ℕ := 0
  ranges : List (ℕ × ℕ) := []
  openRange : Option ℕ := none
  rangesExceeded : Bool := false
  words : List ℕ

def asId (index : ℕ) : ℕ := index % 2 ^ 32

namespace DictionaryIdMatcherBuilder

def withCapacity (len : ℕ) : DictionaryIdMatcherBuilder where
  words := List.replicate ((len + 63) / 64) 0

variable (b : DictionaryIdMatcherBuilder)

def closeRange (stop : ℕ) : DictionaryIdMatcherBuilder :=
  match b.openRange with
  | none => b
  | some start =>
    if b.ranges.length < 8 then { b with openRange := none, ranges := b.ranges ++ [(start,stop)] }
    else { b with openRange := none, ranges := [], rangesExceeded := true }

def push (selected : Bool) : DictionaryIdMatcherBuilder :=
  let index := b.len
  let b := { b with len := b.len + 1 }
  if selected then
    { b with
      selectedCount := b.selectedCount + 1
      words := b.words.modify (index / 64) (· ||| 1 <<< (index % 64))
      openRange := if !b.rangesExceeded && b.openRange.isNone then some (asId index) else b.openRange }
  else b.closeRange (asId index)

def finish : DictionaryIdMatcher :=
  let b := b.closeRange (asId b.len)
  if b.selectedCount = 0 then .none
  else if b.selectedCount = b.len then .all b.len
  else if !b.rangesExceeded then .ranges b.len b.ranges
  else .bitSet b.words

end DictionaryIdMatcherBuilder

def invalidDictionaryIdError {α : Type} : Result α := parquetGeneral "parquet dictionary id out of range"

namespace DictionaryIdMatcher

def fromSelected (selected : List Bool) : DictionaryIdMatcher :=
  (selected.foldl DictionaryIdMatcherBuilder.push (.withCapacity selected.length)).finish

def inRanges (ranges : List (ℕ × ℕ)) (id : ℕ) : Bool := ranges.any fun r => r.1 ≤ id && id < r.2

def inWords (words : List ℕ) (id : ℕ) : Bool :=
  match words[id / 64]? with
  | some word => word >>> (id % 64) &&& 1 != 0
  | Option.none => false

def contains : DictionaryIdMatcher → ℕ → Bool
  | .none, _ => false
  | .all len, id => id < len
  | .ranges len rs, id => id < len && inRanges rs id
  | .bitSet words, id => inWords words id

/-- A bit for each id that passes the test, from a lane on; an id behind the dictionary is an error. -/
def maskLoop (test : ℕ → Bool) (dictionaryLen : ℕ) : List ℕ → ℕ → ℕ → Result ℕ
  | [], _, mask => .ok mask
  | id :: ids, lane, mask =>
    if dictionaryLen ≤ id then invalidDictionaryIdError
    else maskLoop test dictionaryLen ids (lane + 1) (if test id then mask ||| 1 <<< lane else mask)

def maskIds (ids : List ℕ) (baseLane dictionaryLen : ℕ) : DictionaryIdMatcher → Result ℕ
  | .none => maskLoop (fun _ => false) dictionaryLen ids baseLane 0
  | .all len => maskLoop (fun id => id < len) dictionaryLen ids baseLane 0
  | .ranges len [(start,stop)] =>
    maskLoop (fun id => id < len && (start ≤ id && id < stop)) dictionaryLen ids baseLane 0
  | .ranges len rs => maskLoop (fun id => id < len && inRanges rs id) dictionaryLen ids baseLane 0
  | .bitSet words => maskLoop (inWords words) dictionaryLen ids baseLane 0

end DictionaryIdMatcher

section Lanes
variable (data : List UInt8) (pos : ℕ)

def fourteenBitLanes : List ℕ :=
  let word := leWord ((data.drop pos).take 7)
  [word &&& 0x3fff,word >>> 14 &&& 0x3fff,word >>> 28 &&& 0x3fff,word >>> 42 &&& 0x3fff]

/-- Eight values of 15 bits in 15 bytes, each out of a word of four bytes at most. -/
def fifteenBitLanes : List ℕ :=
  (List.range 8).map fun lane =>
    let bitOffset := lane * 15
    let byteOffset := pos + bitOffset / 8
    let word := leWord ((data.drop byteOffset).take (min 4 (pos + 15 - byteOffset)))
    word >>> (bitOffset % 8) &&& (1 <<< 15 - 1)

/-- Eight values of 17 bits in 17 bytes, the last byte apart from the others. -/
def decode17bitEightSwar : List ℕ :=
  let low := leNat ((data.drop pos).take 16)
  let mask := 0x1ffff
  [low % 2 ^ 32 &&& mask,(low >>> 17) % 2 ^ 32 &&& mask,(low >>> 34) % 2 ^ 32 &&& mask,
    (low >>> 51) % 2 ^ 32 &&& mask,(low >>> 68) % 2 ^ 32 &&& mask,(low >>> 85) % 2 ^ 32 &&& mask,
    (low >>> 102) % 2 ^ 32 &&& mask,((low >>> 119) % 2 ^ 32 ||| byteAt data (pos + 16) <<< 9) &&& mask]

end Lanes

structure BitpackedDictionaryIdBlockReader where
  data : List UInt8
  pos : ℕ
  stop : ℕ
  bitWidth : ℕ
  bitBuffer : ℕ := 0
  bufferedBits : ℕ := 0

namespace BitpackedDictionaryIdBlockReader

def new (data : List UInt8) (pos stop bitWidth : ℕ) : BitpackedDictionaryIdBlockReader where
  data := data
  pos := pos
  stop := stop
  bitWidth := bitWidth

variable (r : BitpackedDictionaryIdBlockReader)

/-- Whole groups of ids while the block and the data have room for them; every turn takes an id, so
as many turns as ids are enough. -/
def alignedLoop (lanes : ℕ → List ℕ) (count stride len : ℕ) : ℕ → ℕ → ℕ → List ℕ × ℕ
  | 0, _, pos => ([],pos)
  | fuel + 1, taken, pos =>
    if taken + count ≤ len ∧ pos + stride ≤ r.stop then
      let (ids,pos') := alignedLoop lanes count stride len fuel (taken + count) (pos + stride)
      (lanes pos ++ ids,pos')
    else ([],pos)

def decodeAlignedChunks (len : ℕ) : List ℕ × BitpackedDictionaryIdBlockReader :=
  let groups (lanes : ℕ → List ℕ) (count stride : ℕ) : List ℕ × BitpackedDictionaryIdBlockReader :=
    let (ids,pos) := r.alignedLoop lanes count stride len len 0 r.pos
    (ids,{ r with pos := pos })
  match r.bitWidth with
  | 8 => groups (fun pos => [byteAt r.data pos]) 1 1
  | 7 => groups (sevenBitLanes r.data) 8 7
  | 12 => groups (twelveBitLanes r.data) 2 3
  | 14 => groups (fourteenBitLanes r.data) 4 7
  | 15 => groups (fifteenBitLanes r.data) 8 15
  | 17 => groups (decode17bitEightSwar r.data) 8 17
  | 16 => groups (wholeBytes 2 r.data) 1 2
  | 32 => groups (wholeBytes 4 r.data) 1 4
  | _ => ([],r)

/-- Bytes until the buffer holds a value; a width of bits takes no more bytes than bits. -/
def fillBuffer : ℕ → BitpackedDictionaryIdBlockReader → Result BitpackedDictionaryIdBlockReader
  | 0, r => .ok r
  | fuel + 1, r =>
    if r.bufferedBits < r.bitWidth then
      if r.stop ≤ r.pos then parquetGeneral "not enough data to decode parquet dictionary id block"
      else fillBuffer fuel { r with
        bitBuffer := r.bitBuffer ||| byteAt r.data r.pos <<< r.bufferedBits
        bufferedBits := r.bufferedBits + 8
        pos := r.pos + 1 }
    else .ok r

def decodeBits : ℕ → BitpackedDictionaryIdBlockReader → Result (List ℕ × BitpackedDictionaryIdBlockReader)
  | 0, r => .ok ([],r)
  | count + 1, r => (fillBuffer r.bitWidth r).bind fun r =>
      (decodeBits count { r with
        bitBuffer := r.bitBuffer >>> r.bitWidth
        bufferedBits := r.bufferedBits - r.bitWidth }).map
        fun (ids,r') => ((r.bitBuffer &&& widthMask r.bitWidth) :: ids,r')

def decodeBlock (len : ℕ) : Result (List ℕ × BitpackedDictionaryIdBlockReader) :=
  if r.bitWidth = 0 then .ok (List.replicate len 0,r)
  else
    let (ids,r) := if r.bufferedBits = 0 then r.decodeAlignedChunks len else ([],r)
    (decodeBits (len - ids.length) r).map fun (rest,r) => (ids ++ rest,r)

/-- The masks of groups of ids or-ed together, from a lane on. -/
def maskGroups (matcher : DictionaryIdMatcher) (dictionaryLen : ℕ) (lanes : ℕ → List ℕ) (count stride : ℕ) :
    ℕ → ℕ → ℕ → ℕ → Result ℕ
  | 0, _, _, mask => .ok mask
  | groups + 1, pos, lane, mask => (matcher.maskIds (lanes pos) lane dictionaryLen).bind fun found =>
      maskGroups matcher dictionaryLen lanes count stride groups (pos + stride) (lane + count) (mask ||| found)

/-- The mask of a block, for the widths that are matched at once and blocks of whole groups. -/
def decodeSelectedMaskBlock (len dictionaryLen : ℕ) (matcher : DictionaryIdMatcher) :
    Result (Option ℕ × BitpackedDictionaryIdBlockReader) :=
  let groups (lanes : ℕ → List ℕ) (count stride : ℕ) : Result (Option ℕ × BitpackedDictionaryIdBlockReader) :=
    if len % count ≠ 0 then .ok (none,r)
    else
      let required := len / count * stride
      if r.stop < r.pos + required then parquetGeneral "not enough data to decode parquet dictionary id block"
      else (maskGroups matcher dictionaryLen lanes count stride (len / count) r.pos 0 0).map fun mask =>
        (some mask,{ r with pos := r.pos + required })
  if r.bufferedBits ≠ 0 ∨ dictionaryIdBlock < len then .ok (none,r)
  else
    match r.bitWidth with
    | 8 => groups (fun pos => [byteAt r.data pos]) 1 1
    | 7 => groups (sevenBitLanes r.data) 8 7
    | 12 => groups (twelveBitLanes r.data) 2 3
    | 14 => groups (fourteenBitLanes r.data) 4 7
    | 17 => groups (decode17bitEightSwar r.data) 8 17
    | 16 => groups (wholeBytes 2 r.data) 1 2
    | 32 => groups (wholeBytes 4 r.data) 1 4
    | _ => .ok (none,r)

end BitpackedDictionaryIdBlockReader
end Dodam.Storage

/-! ## Blocks of ids are fields of the data

A reader stands at a bit of the data, which fixes its buffer. Decoding a block
gives the fields from there on and moves to the bit behind them; the mask of a
block has the bits of the ids that are selected, and moves to the same bit.
-/
namespace Dodam.Storage
open Foundation Execution

section Lanes
variable (data : List UInt8) (pos : ℕ)

theorem byteLane_eq : [byteAt data pos] = bitFields (leNat data) 8 (8 * pos) 1 := by
  rw [byteAt_eq]
  rfl

theorem fourteenBitLanes_eq : fourteenBitLanes data pos = bitFields (leNat data) 14 (8 * pos) 4 := by
  have hfields := bitFields_bitField (n := leNat data) (o := 8 * pos) (s := 0) (w := 14) (k := 4) (m := 56) (by decide)
  have hmask (x s : ℕ) : x >>> s &&& 0x3fff = bitField x s 14 := shiftRight_and_mask x s 14
  rw [fourteenBitLanes,leWord_eq_leNat,leNat_slice,← Nat.add_zero (8 * pos),← hfields]
  simp only [hmask,bitFields,Nat.zero_add]
  exact congrArg (· :: _) (hmask _ 0)

theorem fifteenBitLanes_eq : fifteenBitLanes data pos = bitFields (leNat data) 15 (8 * pos) 8 := by
  rw [fifteenBitLanes,bitFields_eq_map]
  refine List.map_congr_left fun lane hlane => ?_
  have hlt := List.mem_range.mp hlane
  have hmask (x s : ℕ) : x >>> s &&& (1 <<< 15 - 1) = bitField x s 15 := shiftRight_and_mask x s 15
  have hoffset : 8 * (pos + lane * 15 / 8) + lane * 15 % 8 = 8 * pos + lane * 15 := by omega
  simp only
  rw [hmask,leWord_eq_leNat,leNat_slice,bitField_bitField (by omega),hoffset]

theorem decode17bitEightSwar_eq : decode17bitEightSwar data pos = bitFields (leNat data) 17 (8 * pos) 8 := by
  have hmask (x s : ℕ) : (x >>> s) % 2 ^ 32 &&& 0x1ffff = bitField x s 17 := by
    rw [← shiftRight_and_mask x s 17]
    refine (Nat.and_two_pow_sub_one_eq_mod _ 17).trans ?_
    rw [Nat.mod_mod_of_dvd _ (pow_dvd_pow 2 (by decide : 17 ≤ 32)),Nat.and_two_pow_sub_one_eq_mod]
  have hlow (s : ℕ) (h : s + 17 ≤ 128) :
      bitField (leNat ((data.drop pos).take 16)) s 17 = bitField (leNat data) (8 * pos + s) 17 := by
    rw [leNat_slice,bitField_bitField h]
  -- the last value takes nine bits of the word and the byte behind it
  have htop : leNat ((data.drop pos).take 16) >>> 119 = bitField (leNat data) (8 * pos + 119) 9 := by
    rw [leNat_slice,shiftRight_bitField (by decide)]
  have hnine : bitField (leNat data) (8 * pos + 119) 9 < 2 ^ 9 := bitField_lt ..
  have hlast : ((leNat ((data.drop pos).take 16) >>> 119) % 2 ^ 32 ||| byteAt data (pos + 16) <<< 9) &&& 0x1ffff =
      bitField (leNat data) (8 * pos + 119) 17 := by
    have hbyte : byteAt data (pos + 16) = bitField (leNat data) (8 * pos + 119 + 9) 8 := by
      rw [byteAt_eq,Nat.mul_add]
    refine (Nat.and_two_pow_sub_one_eq_mod _ 17).trans ?_
    rw [htop,Nat.mod_eq_of_lt (hnine.trans (by decide)),Nat.shiftLeft_eq,Nat.or_comm,Nat.mul_comm,
      ← Nat.two_pow_add_eq_or_of_lt hnine,hbyte,Nat.add_comm,← bitField_add,Nat.mod_eq_of_lt (bitField_lt ..)]
  simp only [decode17bitEightSwar,bitFields,hlast,hmask,hlow _ (by decide : 17 + 17 ≤ 128),
    hlow _ (by decide : 34 + 17 ≤ 128),hlow _ (by decide : 51 + 17 ≤ 128),hlow _ (by decide : 68 + 17 ≤ 128),
    hlow _ (by decide : 85 + 17 ≤ 128),hlow _ (by decide : 102 + 17 ≤ 128)]
  exact congrArg (· :: _) ((hmask _ 0).trans (hlow 0 (by decide)))

end Lanes

namespace DictionaryIdMatcher
variable {dictionaryLen : ℕ} {ids : List ℕ}

theorem maskLoop_eq (test : ℕ → Bool) (lane mask : ℕ) (h : ∀ id ∈ ids, id < dictionaryLen) :
    maskLoop test dictionaryLen ids lane mask = .ok (mask ||| flagsMask (ids.map test) lane) := by
  induction ids generalizing lane mask with
  | nil => rw [maskLoop,List.map_nil,flagsMask,Nat.or_zero]
  | cons id ids ih =>
    have hmask : (if test id then mask ||| 1 <<< lane else mask) = mask ||| if test id then 1 <<< lane else 0 := by
      split_ifs
      · rfl
      · rw [Nat.or_zero]
    rw [maskLoop,if_neg (Nat.not_le.mpr (h id List.mem_cons_self)),ih _ _ fun id hid => h id (List.mem_cons_of_mem _ hid),
      hmask,List.map_cons,flagsMask,Nat.lor_assoc]

theorem maskLoop_error (test : ℕ → Bool) (lane mask : ℕ) (h : ∃ id ∈ ids, dictionaryLen ≤ id) :
    maskLoop test dictionaryLen ids lane mask = invalidDictionaryIdError := by
  induction ids generalizing lane mask with
  | nil =>
    obtain ⟨id,hid,-⟩ := h
    cases hid
  | cons id ids ih =>
    rw [maskLoop]
    split_ifs with hid
    · rfl
    all_goals
      obtain ⟨bad,hbad,hle⟩ := h
      rcases List.mem_cons.mp hbad with rfl | hbad
      · exact absurd hle hid
      · exact ih _ _ ⟨bad,hbad,hle⟩

theorem maskIds_loop (matcher : DictionaryIdMatcher) (ids : List ℕ) (lane dictionaryLen : ℕ) :
    matcher.maskIds ids lane dictionaryLen = maskLoop matcher.contains dictionaryLen ids lane 0 := by
  cases matcher with
  | none => rfl
  | all len => rfl
  | bitSet words => rfl
  | ranges len ranges =>
    rcases ranges with _ | ⟨⟨start,stop⟩,_ | ⟨r,ranges⟩⟩
    · rfl
    · have htest : (fun id => decide (id < len) && (decide (start ≤ id) && decide (id < stop))) =
          (DictionaryIdMatcher.ranges len [(start,stop)]).contains := by
        funext id
        rw [contains,inRanges,List.any_cons,List.any_nil,Bool.or_false]
      rw [← htest]
      rfl
    · rfl

end DictionaryIdMatcher

namespace BitpackedDictionaryIdBlockReader
variable {data : List UInt8} {stop w off : ℕ}

/-- The reader at a bit of the data: the rest of the byte it is in has been read. -/
def atBit (data : List UInt8) (stop w off : ℕ) : BitpackedDictionaryIdBlockReader where
  data := data
  pos := (off + 7) / 8
  stop := stop
  bitWidth := w
  bitBuffer := bitField (leNat data) off (8 * ((off + 7) / 8) - off)
  bufferedBits := 8 * ((off + 7) / 8) - off

theorem new_eq_atBit (data : List UInt8) (pos stop w : ℕ) : new data pos stop w = atBit data stop w (8 * pos) := by
  have hpos : (8 * pos + 7) / 8 = pos := by omega
  rw [new,atBit,hpos,Nat.sub_self,bitField_zero_width]

structure Buffered (data : List UInt8) (stop w off : ℕ) (r : BitpackedDictionaryIdBlockReader) : Prop where
  data_eq : r.data = data
  stop_eq : r.stop = stop
  width_eq : r.bitWidth = w
  place : 8 * r.pos = off + r.bufferedBits
  few : r.bufferedBits < w + 8
  buffer : r.bitBuffer = bitField (leNat data) off r.bufferedBits

theorem buffered_atBit (data : List UInt8) (stop w off : ℕ) : Buffered data stop w off (atBit data stop w off) where
  data_eq := rfl
  stop_eq := rfl
  width_eq := rfl
  place := by
    simp only [atBit]
    omega
  few := by
    simp only [atBit]
    omega
  buffer := rfl

theorem Buffered.eq_atBit {r : BitpackedDictionaryIdBlockReader} (h : Buffered data stop w off r)
    (hfew : r.bufferedBits < 8) : r = atBit data stop w off := by
  obtain ⟨rfl,rfl,rfl,hplace,-,hbuffer⟩ := h
  have hpos : (off + 7) / 8 = r.pos := by omega
  have hbits : 8 * r.pos - off = r.bufferedBits := by omega
  rw [atBit,hpos,hbits,← hbuffer]

theorem Buffered.read {r : BitpackedDictionaryIdBlockReader} (h : Buffered data stop w off r)
    (hneed : r.bufferedBits < w) :
    Buffered data stop w off { r with
      bitBuffer := r.bitBuffer ||| byteAt r.data r.pos <<< r.bufferedBits
      bufferedBits := r.bufferedBits + 8
      pos := r.pos + 1 } := by
  have hplace := h.place
  have hlow : r.bitBuffer < 2 ^ r.bufferedBits := by
    rw [h.buffer]
    exact bitField_lt ..
  refine ⟨h.data_eq,h.stop_eq,h.width_eq,?_,?_,?_⟩
  · simp only
    omega
  · simp only
    omega
  · simp only
    rw [Nat.shiftLeft_eq,Nat.or_comm,Nat.mul_comm,← Nat.two_pow_add_eq_or_of_lt hlow,byteAt_eq,hplace,h.data_eq,
      h.buffer,bitField_add,Nat.add_comm]

theorem fillBuffer_eq (fuel : ℕ) {r : BitpackedDictionaryIdBlockReader} (h : Buffered data stop w off r)
    (hinside : off + w ≤ 8 * stop) (hfuel : w ≤ r.bufferedBits + fuel * 8) :
    ∃ r', fillBuffer fuel r = .ok r' ∧ Buffered data stop w off r' ∧ w ≤ r'.bufferedBits := by
  induction fuel generalizing r with
  | zero => exact ⟨r,rfl,h,by omega⟩
  | succ fuel ih =>
    have hplace := h.place
    have hstop := h.stop_eq
    have hwidth := h.width_eq
    rw [fillBuffer]
    split_ifs with hneed hend
    · omega
    · exact ih (h.read (hwidth ▸ hneed)) (by
        simp only
        omega)
    · exact ⟨r,rfl,h,hwidth ▸ Nat.le_of_not_lt hneed⟩

theorem decodeBits_atBit {count : ℕ} (hinside : off + count * w ≤ 8 * stop) :
    decodeBits count (atBit data stop w off) =
      .ok (bitFields (leNat data) w off count,atBit data stop w (off + count * w)) := by
  induction count generalizing off with
  | zero =>
    rw [Nat.zero_mul]
    rfl
  | succ count ih =>
    have hsucc : (count + 1) * w = w + count * w := by ring
    obtain ⟨r,hr,hbuffered,hfull⟩ := fillBuffer_eq w (buffered_atBit data stop w off)
      (by omega : off + w ≤ 8 * stop) (by omega)
    -- behind the value less than a byte is left
    have hrest : { r with bitBuffer := r.bitBuffer >>> r.bitWidth, bufferedBits := r.bufferedBits - r.bitWidth } =
        atBit data stop w (off + w) := by
      obtain ⟨hdata,hstop,hwidth,hplace,hfew,hbuffer⟩ := hbuffered
      refine Buffered.eq_atBit ⟨hdata,hstop,hwidth,?_,?_,?_⟩ ?_
      · simp only [hwidth]
        omega
      · simp only [hwidth]
        omega
      · simp only [hwidth,hbuffer]
        rw [shiftRight_bitField hfull]
      · simp only [hwidth]
        omega
    have hvalue : r.bitBuffer &&& widthMask r.bitWidth = bitField (leNat data) off w := by
      rw [widthMask_eq,hbuffered.width_eq,hbuffered.buffer,Nat.and_two_pow_sub_one_eq_mod]
      have hzero := bitField_bitField (n := leNat data) (o := off) (s := 0) (w := w) (m := r.bufferedBits) (by omega)
      rwa [bitField,pow_zero,Nat.div_one] at hzero
    rw [decodeBits,show (atBit data stop w off).bitWidth = w from rfl,hr]
    simp only [Except.bind]
    rw [hrest,ih (by omega),hvalue,hsucc,← Nat.add_assoc]
    rfl

theorem alignedLoop_eq {lanes : ℕ → List ℕ} {n count stride len : ℕ} {r : BitpackedDictionaryIdBlockReader}
    (hlanes : ∀ pos, lanes pos = bitFields n w (8 * pos) count) (hstride : count * w = 8 * stride) (fuel : ℕ)
    {taken : ℕ} (pos : ℕ) (htaken : taken ≤ len) :
    ∃ groups, r.alignedLoop lanes count stride len fuel taken pos =
        (bitFields n w (8 * pos) (groups * count),pos + groups * stride) ∧ taken + groups * count ≤ len := by
  induction fuel generalizing taken pos with
  | zero => exact ⟨0,by simp [alignedLoop,bitFields],by omega⟩
  | succ fuel ih =>
    rw [alignedLoop]
    split_ifs with hroom
    · obtain ⟨groups,hloop,hle⟩ := ih (pos + stride) hroom.1
      have hcount : (groups + 1) * count = count + groups * count := by ring
      have hpos : pos + (groups + 1) * stride = pos + stride + groups * stride := by ring
      refine ⟨groups + 1,?_,by omega⟩
      rw [hloop,hcount,hpos,bitFields_add,hlanes,hstride,Nat.mul_add]
    · exact ⟨0,by simp [bitFields],by omega⟩

theorem atBit_move {pos : ℕ} (halign : off % 8 = 0) (hpos : 8 * pos = off) (groups stride : ℕ) :
    { atBit data stop w off with pos := pos + groups * stride } = atBit data stop w (off + groups * (8 * stride)) := by
  have hmul : groups * (8 * stride) = 8 * (groups * stride) := by ring
  refine Buffered.eq_atBit ⟨rfl,rfl,rfl,?_,?_,?_⟩ ?_
  all_goals simp only [atBit]
  · omega
  · omega
  · have hzero : 8 * ((off + 7) / 8) - off = 0 := by omega
    rw [hzero,bitField_zero_width,bitField_zero_width]
  · omega

theorem decodeAlignedChunks_atBit (len : ℕ) (halign : (atBit data stop w off).bufferedBits = 0) :
    ∃ n ≤ len, (atBit data stop w off).decodeAlignedChunks len =
      (bitFields (leNat data) w off n,atBit data stop w (off + n * w)) := by
  have hoff : off % 8 = 0 := by
    simp only [atBit] at halign
    omega
  have hpos : 8 * ((off + 7) / 8) = off := by omega
  -- one argument for all widths, whatever the lanes of a group
  have hgroups {lanes : ℕ → List ℕ} {count stride : ℕ} (hlanes : ∀ pos, lanes pos = bitFields (leNat data) w (8 * pos) count)
      (hstride : count * w = 8 * stride) :
      ∃ n ≤ len, ((((atBit data stop w off).alignedLoop lanes count stride len len 0 ((off + 7) / 8)).1,
          { atBit data stop w off with
            pos := ((atBit data stop w off).alignedLoop lanes count stride len len 0 ((off + 7) / 8)).2 }) :
          List ℕ × BitpackedDictionaryIdBlockReader) =
        (bitFields (leNat data) w off n,atBit data stop w (off + n * w)) := by
    obtain ⟨groups,hloop,hle⟩ := alignedLoop_eq (r := atBit data stop w off) hlanes hstride len ((off + 7) / 8) (Nat.zero_le len)
    refine ⟨groups * count,by omega,?_⟩
    rw [hloop,Nat.mul_assoc,hstride,← atBit_move hoff hpos,hpos]
  unfold decodeAlignedChunks
  simp only [atBit]
  split
  · exact hgroups (fun pos => byteLane_eq data pos) rfl
  · exact hgroups (sevenBitLanes_eq data) rfl
  · exact hgroups (twelveBitLanes_eq data) rfl
  · exact hgroups (fourteenBitLanes_eq data) rfl
  · exact hgroups (fifteenBitLanes_eq data) rfl
  · exact hgroups (decode17bitEightSwar_eq data) rfl
  · exact hgroups (fun pos => wholeBytes_eq data pos 2) rfl
  · exact hgroups (fun pos => wholeBytes_eq data pos 4) rfl
  · exact ⟨0,Nat.zero_le _,by rw [Nat.zero_mul]; rfl⟩

theorem decodeBlock_atBit {len : ℕ} (hinside : off + len * w ≤ 8 * stop) :
    (atBit data stop w off).decodeBlock len =
      .ok (bitFields (leNat data) w off len,atBit data stop w (off + len * w)) := by
  obtain ⟨n,hn,haligned⟩ : ∃ n ≤ len, (if (atBit data stop w off).bufferedBits = 0 then
      (atBit data stop w off).decodeAlignedChunks len else ([],atBit data stop w off)) =
      (bitFields (leNat data) w off n,atBit data stop w (off + n * w)) := by
    split_ifs with halign
    · exact decodeAlignedChunks_atBit len halign
    · exact ⟨0,Nat.zero_le _,by rw [Nat.zero_mul]; rfl⟩
  obtain ⟨k,rfl⟩ := Nat.exists_eq_add_of_le hn
  have hsplit : (n + k) * w = n * w + k * w := Nat.add_mul ..
  by_cases hzero : (atBit data stop w off).bitWidth = 0
  · have hw : w = 0 := hzero
    rw [decodeBlock,if_pos hzero,hw,bitFields_zero_width,Nat.mul_zero]
    rfl
  · rw [decodeBlock,if_neg hzero,haligned]
    simp only
    rw [length_bitFields,Nat.add_sub_cancel_left,decodeBits_atBit (by omega),hsplit,bitFields_add,← Nat.add_assoc]
    rfl

section Masks
variable {matcher : DictionaryIdMatcher} {dictionaryLen : ℕ}

theorem maskGroups_eq {lanes : ℕ → List ℕ} {n count stride : ℕ} (hlanes : ∀ pos, lanes pos = bitFields n w (8 * pos) count)
    (hstride : count * w = 8 * stride) (groups pos lane mask : ℕ) :
    maskGroups matcher dictionaryLen lanes count stride groups pos lane mask =
      if ∀ id ∈ bitFields n w (8 * pos) (groups * count), id < dictionaryLen then
        .ok (mask ||| flagsMask ((bitFields n w (8 * pos) (groups * count)).map matcher.contains) lane)
      else invalidDictionaryIdError := by
  induction groups generalizing pos lane mask with
  | zero => simp [maskGroups,bitFields,flagsMask]
  | succ groups ih =>
    have hcount : (groups + 1) * count = count + groups * count := by ring
    rw [maskGroups,hcount,bitFields_add,hstride,← Nat.mul_add,hlanes,DictionaryIdMatcher.maskIds_loop]
    by_cases hfirst : ∀ id ∈ bitFields n w (8 * pos) count, id < dictionaryLen
    · rw [DictionaryIdMatcher.maskLoop_eq _ _ _ hfirst,Nat.zero_or]
      simp only [Except.bind,ih,List.mem_append,or_imp,forall_and,and_iff_right hfirst,List.map_append,flagsMask_append,
        List.length_map,length_bitFields,Nat.lor_assoc]
    · have hbad : ∃ id ∈ bitFields n w (8 * pos) count, dictionaryLen ≤ id := by
        simpa only [not_forall,Nat.not_lt,exists_prop] using hfirst
      rw [DictionaryIdMatcher.maskLoop_error _ _ _ hbad,
        if_neg fun h => hfirst fun id hid => h id (List.mem_append_left _ hid)]
      rfl

/-- The values of a group of the widths that are matched at once. -/
def maskLanes : ℕ → Option ℕ
  | 7 => some 8
  | 8 => some 1
  | 12 => some 2
  | 14 => some 4
  | 16 => some 1
  | 17 => some 8
  | 32 => some 1
  | _ => none

/-- Blocks of whole groups are matched at once. -/
def maskedAtOnce (w len : ℕ) : Bool := (maskLanes w).any fun lanes => len % lanes == 0

theorem maskedAtOnce_of_lanes {w lanes : ℕ} (h : maskLanes w = some lanes) (len : ℕ) :
    maskedAtOnce w len = decide (len % lanes = 0) := by
  rw [maskedAtOnce,h]
  rfl

/-- A block is matched as a whole, unless its width or length is not, and then nothing is read. -/
theorem decodeSelectedMaskBlock_atBit (matcher : DictionaryIdMatcher) (dictionaryLen : ℕ) {len : ℕ}
    (hinside : off + len * w ≤ 8 * stop) :
    (atBit data stop w off).decodeSelectedMaskBlock len dictionaryLen matcher =
      if off % 8 = 0 ∧ len ≤ dictionaryIdBlock ∧ maskedAtOnce w len = true then
        if ∀ id ∈ bitFields (leNat data) w off len, id < dictionaryLen then
          .ok (some (flagsMask ((bitFields (leNat data) w off len).map matcher.contains) 0),
            atBit data stop w (off + len * w))
        else invalidDictionaryIdError
      else .ok (none,atBit data stop w off) := by
  have hbuffered : (atBit data stop w off).bufferedBits = 0 ↔ off % 8 = 0 := by
    simp only [atBit]
    omega
  by_cases hdecline : (atBit data stop w off).bufferedBits ≠ 0 ∨ dictionaryIdBlock < len
  · rw [if_neg]
    · unfold decodeSelectedMaskBlock
      exact if_pos hdecline
    · rintro ⟨halign,hlen,-⟩
      exact hdecline.elim (fun h => h (hbuffered.mpr halign)) (Nat.not_lt.mpr hlen)
  have halign : off % 8 = 0 := hbuffered.mp (not_not.mp (not_or.mp hdecline).1)
  have hpos : 8 * ((off + 7) / 8) = off := by omega
  simp only [halign,Nat.not_lt.mp (not_or.mp hdecline).2,true_and]
  -- one argument for all widths, whatever the lanes of a group
  have hgroups {lanes : ℕ → List ℕ} {count stride : ℕ} (hcount : maskLanes w = some count)
      (hlanes : ∀ pos, lanes pos = bitFields (leNat data) w (8 * pos) count) (hstride : count * w = 8 * stride) :
      (if len % count ≠ 0 then .ok (none,atBit data stop w off)
        else if stop < (off + 7) / 8 + len / count * stride then
          parquetGeneral "not enough data to decode parquet dictionary id block"
        else (maskGroups matcher dictionaryLen lanes count stride (len / count) ((off + 7) / 8) 0 0).map fun mask =>
          (some mask,{ atBit data stop w off with pos := (off + 7) / 8 + len / count * stride })) =
        if maskedAtOnce w len = true then
          if ∀ id ∈ bitFields (leNat data) w off len, id < dictionaryLen then
            .ok (some (flagsMask ((bitFields (leNat data) w off len).map matcher.contains) 0),
              atBit data stop w (off + len * w))
          else invalidDictionaryIdError
        else (.ok (none,atBit data stop w off) : Result (Option ℕ × BitpackedDictionaryIdBlockReader)) := by
    rw [maskedAtOnce_of_lanes hcount]
    by_cases hwhole : len % count = 0
    · have hlen : len / count * count = len := Nat.div_mul_cancel (Nat.dvd_of_mod_eq_zero hwhole)
      have hbits : len / count * (8 * stride) = len * w := by rw [← hstride,← Nat.mul_assoc,hlen]
      have hbytes : len / count * (8 * stride) = 8 * (len / count * stride) := by ring
      rw [if_neg (not_not.mpr hwhole),if_neg (by omega),if_pos (decide_eq_true hwhole),maskGroups_eq hlanes hstride,hlen,
        hpos,Nat.zero_or,atBit_move halign hpos,hbits]
      split_ifs
      · rfl
      · rfl
    · rw [if_pos hwhole,if_neg (mt of_decide_eq_true hwhole)]
  unfold decodeSelectedMaskBlock
  rw [if_neg hdecline]
  simp only [atBit]
  split
  · exact hgroups rfl (fun pos => byteLane_eq data pos) rfl
  · exact hgroups rfl (sevenBitLanes_eq data) rfl
  · exact hgroups rfl (twelveBitLanes_eq data) rfl
  · exact hgroups rfl (fourteenBitLanes_eq data) rfl
  · exact hgroups rfl (decode17bitEightSwar_eq data) rfl
  · exact hgroups rfl (fun pos => wholeBytes_eq data pos 2) rfl
  · exact hgroups rfl (fun pos => wholeBytes_eq data pos 4) rfl
  · have hnone : maskLanes w = none := by
      unfold maskLanes
      split <;> simp_all
    rw [maskedAtOnce,hnone]
    rfl

theorem decodeSelectedMaskBlock_some {len mask : ℕ} {r : BitpackedDictionaryIdBlockReader} (hinside : off + len * w ≤ 8 * stop)
    (h : (atBit data stop w off).decodeSelectedMaskBlock len dictionaryLen matcher = .ok (some mask,r)) :
    mask = flagsMask ((bitFields (leNat data) w off len).map matcher.contains) 0 ∧
      r = atBit data stop w (off + len * w) := by
  rw [decodeSelectedMaskBlock_atBit matcher dictionaryLen hinside] at h
  split_ifs at h
  · cases h
    exact ⟨rfl,rfl⟩
  · cases h
  · cases h

theorem decodeSelectedMaskBlock_none {len : ℕ} {r : BitpackedDictionaryIdBlockReader} (hinside : off + len * w ≤ 8 * stop)
    (h : (atBit data stop w off).decodeSelectedMaskBlock len dictionaryLen matcher = .ok (none,r)) :
    r = atBit data stop w off := by
  rw [decodeSelectedMaskBlock_atBit matcher dictionaryLen hinside] at h
  split_ifs at h
  · cases h
  · cases h
  · cases h
    rfl

/-- The readers of a group after any calls that stay inside it, with the number of ids they took. -/
inductive Reached (data : List UInt8) (pos stop w : ℕ) : ℕ → BitpackedDictionaryIdBlockReader → Prop
  | new : Reached data pos stop w 0 (new data pos stop w)
  | block {n len : ℕ} {r r' : BitpackedDictionaryIdBlockReader} {ids : List ℕ} (h : Reached data pos stop w n r)
      (hlen : len ≤ dictionaryIdBlock) (hinside : 8 * pos + (n + len) * w ≤ 8 * stop) (hr : r.decodeBlock len = .ok (ids,r')) :
      Reached data pos stop w (n + len) r'
  | mask {n len dictionaryLen mask : ℕ} {matcher : DictionaryIdMatcher} {r r' : BitpackedDictionaryIdBlockReader}
      (h : Reached data pos stop w n r) (hlen : len ≤ dictionaryIdBlock) (hinside : 8 * pos + (n + len) * w ≤ 8 * stop)
      (hr : r.decodeSelectedMaskBlock len dictionaryLen matcher = .ok (some mask,r')) : Reached data pos stop w (n + len) r'
  | declined {n len dictionaryLen : ℕ} {matcher : DictionaryIdMatcher} {r r' : BitpackedDictionaryIdBlockReader}
      (h : Reached data pos stop w n r) (hlen : len ≤ dictionaryIdBlock) (hinside : 8 * pos + (n + len) * w ≤ 8 * stop)
      (hr : r.decodeSelectedMaskBlock len dictionaryLen matcher = .ok (none,r')) : Reached data pos stop w n r'

theorem Reached.eq_atBit {pos n : ℕ} {r : BitpackedDictionaryIdBlockReader} (h : Reached data pos stop w n r) :
    r = atBit data stop w (8 * pos + n * w) := by
  induction h with
  | new => rw [Nat.zero_mul,Nat.add_zero,new_eq_atBit]
  | @block n len r r' ids h hlen hinside hr ih =>
    rw [Nat.add_mul,← Nat.add_assoc] at hinside ⊢
    rw [ih,decodeBlock_atBit hinside] at hr
    cases hr
    rfl
  | @mask n len dictionaryLen mask matcher r r' h hlen hinside hr ih =>
    rw [Nat.add_mul,← Nat.add_assoc] at hinside ⊢
    rw [ih] at hr
    exact (decodeSelectedMaskBlock_some hinside hr).2
  | @declined n len dictionaryLen matcher r r' h hlen hinside hr ih =>
    rw [Nat.add_mul,← Nat.add_assoc] at hinside
    rw [ih] at hr
    exact decodeSelectedMaskBlock_none hinside hr

/-- After any calls inside a group of bit-packed ids, a block holds the next ids of the group; a mask
of the block has the bits of those the matcher contains, and leaves the reader where the block does. -/
theorem Reached.decodes {pos n len : ℕ} {r : BitpackedDictionaryIdBlockReader} (h : Reached data pos stop w n r)
    (hinside : 8 * pos + (n + len) * w ≤ 8 * stop) :
    ∃ r', r.decodeBlock len = .ok (bitFields (leNat data) w (8 * pos + n * w) len,r') ∧
      ∀ (matcher : DictionaryIdMatcher) (dictionaryLen mask : ℕ) (r'' : BitpackedDictionaryIdBlockReader),
        r.decodeSelectedMaskBlock len dictionaryLen matcher = .ok (some mask,r'') →
        r'' = r' ∧ ∀ k, mask.testBit k = true ↔
          ∃ id, (bitFields (leNat data) w (8 * pos + n * w) len)[k]? = some id ∧ matcher.contains id = true := by
  rw [Nat.add_mul,← Nat.add_assoc] at hinside
  rw [h.eq_atBit]
  refine ⟨_,decodeBlock_atBit hinside,fun matcher dictionaryLen mask r'' hmask => ?_⟩
  obtain ⟨rfl,rfl⟩ := decodeSelectedMaskBlock_some hinside hmask
  refine ⟨rfl,fun k => ?_⟩
  rw [testBit_flagsMask,Nat.sub_zero,List.getElem?_map]
  cases (bitFields (leNat data) w (8 * pos + n * w) len)[k]? with
  | none => simp
  | some id => simp

theorem reached_decodes_sample :
    ∃ r', (new [0xe4,0xe4] 0 2 2).decodeBlock 8 = .ok (bitFields (leNat [0xe4,0xe4]) 2 (8 * 0 + 0 * 2) 8,r') ∧
      ∀ (matcher : DictionaryIdMatcher) (dictionaryLen mask : ℕ) (r'' : BitpackedDictionaryIdBlockReader),
        (new [0xe4,0xe4] 0 2 2).decodeSelectedMaskBlock 8 dictionaryLen matcher = .ok (some mask,r'') →
        r'' = r' ∧ ∀ k, mask.testBit k = true ↔
          ∃ id, (bitFields (leNat [0xe4,0xe4]) 2 (8 * 0 + 0 * 2) 8)[k]? = some id ∧ matcher.contains id = true :=
  Reached.decodes .new (by decide)

end Masks
end BitpackedDictionaryIdBlockReader
end Dodam.Storage
