import Mathlib.Data.Nat.Bitwise
import Dodam.Execution.HashJoin.Batch
import Dodam.Foundation.KeyedTable
import Dodam.Foundation.Machine

/-! # The key layouts of a hash-join build

A build keeps row references under one of several layouts: hash maps with one
or many references for each key, arrays indexed by the distance from the
smallest key, and the general map on row formats guarded by a Bloom filter.
-/
namespace Dodam.Execution
open Foundation

structure BuildRowRef where
  batch : ℕ
  row : ℕ
deriving DecidableEq, Repr

/-- An array indexed by key offset, with or without gaps. -/
inductive DenseSlots (ρ : Type*)
  | complete (rows : List ρ)
  | sparse (rows : List (Option ρ))

def DenseSlots.get {ρ : Type*} : DenseSlots ρ → ℕ → Option ρ
  | .complete rows,index => rows[index]?
  | .sparse rows,index => rows[index]?.join

def DenseSlots.len {ρ : Type*} : DenseSlots ρ → ℕ
  | .complete rows => rows.length
  | .sparse rows => rows.length

/-- `DenseI32UnmatchedRefs`: the occupied slots not marked as matched. -/
def DenseSlots.unmatched {ρ : Type*} (slots : DenseSlots ρ) (isMatched : List Bool) : List ρ :=
  match slots with
  | .complete rows =>
    rows.zipIdx.filterMap fun row => if isMatched.getD row.2 false then none else some row.1
  | .sparse rows =>
    rows.zipIdx.filterMap fun row => if isMatched.getD row.2 false then none else row.1

/-- A dense array starting at the smallest key: `DenseI32BuildRows`, `DenseI64BuildRows`
and `DenseI32MultiBuildRows` differ in the key width and in what a slot holds. -/
structure DenseRows (ρ : Type*) where
  min : ℤ
  slots : DenseSlots ρ

/-- `key.checked_sub(min)? as usize`, then the slot. -/
def DenseRows.getSigned {ρ : Type*} (width : ℕ) (rows : DenseRows ρ) (key : ℤ) : Option ρ :=
  (checkedSigned width (key - rows.min)).bind fun index => rows.slots.get (asUnsigned 64 index)

abbrev DenseI32BuildRows := DenseRows BuildRowRef
abbrev DenseI32MultiBuildRows := DenseRows (List BuildRowRef)
abbrev DenseI64BuildRows := DenseRows BuildRowRef

def DenseI32BuildRows.get (rows : DenseI32BuildRows) (key : Int32) : Option BuildRowRef :=
  rows.getSigned 32 key.toInt

def DenseI32MultiBuildRows.get (rows : DenseI32MultiBuildRows) (key : Int32) :
    Option (List BuildRowRef) :=
  rows.getSigned 32 key.toInt

def DenseI64BuildRows.get (rows : DenseI64BuildRows) (key : Int64) : Option BuildRowRef :=
  rows.getSigned 64 key.toInt

/-- `dense_i32_pair_index`. -/
def denseI32PairIndex (left right minLeft minRight : ℤ) (rightWidth : ℕ) : Option ℕ := do
  let left ← checkedSigned 32 (left - minLeft)
  let right ← checkedSigned 32 (right - minRight)
  if left < 0 ∨ right < 0 then none
  else if rightWidth ≤ right.toNat then none
  else if left.toNat * rightWidth + right.toNat ≤ maxUnsigned 64 then
    some (left.toNat * rightWidth + right.toNat)
  else none

structure DenseI32PairBuildRows where
  minLeft : ℤ
  minRight : ℤ
  rightWidth : ℕ
  slots : DenseSlots BuildRowRef

def DenseI32PairBuildRows.get (rows : DenseI32PairBuildRows) (key : Int32 × Int32) :
    Option BuildRowRef :=
  (denseI32PairIndex key.1.toInt key.2.toInt rows.minLeft rows.minRight rows.rightWidth).bind
    rows.slots.get

structure DenseI32KeySet where
  min : ℤ
  present : List Bool

def DenseI32KeySet.contains (keys : DenseI32KeySet) (key : Int32) : Bool :=
  match checkedSigned 32 (key.toInt - keys.min) with
  | none => false
  | some index => keys.present.getD (asUnsigned 64 index) false

structure BloomFilter where
  bits : List ℕ
  mask : ℕ

abbrev RowHash := OwnedRow → ℕ → ℕ

def bloomHashes (hashRowWithSalt : RowHash) (row : OwnedRow) : List ℕ :=
  [hashRowWithSalt row 0x9e3779b97f4a7c15,
   hashRowWithSalt row 0xc2b2ae3d27d4eb4f,
   hashRowWithSalt row 0x165667b19e3779f9]

def BloomFilter.new (expectedRows : ℕ) : BloomFilter :=
  let bits := max (min (expectedRows * 16) (maxUnsigned 64)).nextPowerOfTwo 64
  { bits := List.replicate ((bits + 63) / 64) 0, mask := bits - 1 }

def BloomFilter.set (filter : BloomFilter) (hash : ℕ) : BloomFilter :=
  let bit := hash &&& filter.mask
  { filter with bits := filter.bits.modify (bit / 64) fun word => word ||| 2 ^ (bit % 64) }

def BloomFilter.get (filter : BloomFilter) (hash : ℕ) : Bool :=
  let bit := hash &&& filter.mask
  (filter.bits.getD (bit / 64) 0).testBit (bit % 64)

def BloomFilter.insert (hashRowWithSalt : RowHash) (filter : BloomFilter) (row : OwnedRow) :
    BloomFilter :=
  (bloomHashes hashRowWithSalt row).foldl BloomFilter.set filter

def BloomFilter.mightContain (hashRowWithSalt : RowHash) (filter : BloomFilter) (row : OwnedRow) :
    Bool :=
  (bloomHashes hashRowWithSalt row).all filter.get

structure HashJoinBuild (α : Type*) where
  batches : List (RecordBatch α)
  keyDataTypes : List DataType
  allRows : List BuildRowRef
  rows : Map OwnedRow (List BuildRowRef)
  heavyRows : Map OwnedRow (List BuildRowRef)
  i32Rows : Option (Map Int32 (List BuildRowRef))
  i32DenseRows : Option DenseI32MultiBuildRows
  i32UniqueRows : Option (Map Int32 BuildRowRef)
  i32DenseUniqueRows : Option DenseI32BuildRows
  i32KeySet : Option (List Int32)
  i32DenseKeySet : Option DenseI32KeySet
  i32PairRows : Option (Map (Int32 × Int32) (List BuildRowRef))
  i32PairUniqueRows : Option (Map (Int32 × Int32) BuildRowRef)
  i32PairDenseUniqueRows : Option DenseI32PairBuildRows
  stringRows : Option (Map String (List BuildRowRef))
  stringUniqueRows : Option (Map String BuildRowRef)
  i64Rows : Option (Map Int64 (List BuildRowRef))
  i64UniqueRows : Option (Map Int64 BuildRowRef)
  i64DenseUniqueRows : Option DenseI64BuildRows
  bloom : BloomFilter

inductive MatchedBuildTracker
  | set (rows : Finset BuildRowRef)
  | denseI32 (min : ℤ) (isMatched : List Bool) (matchedCount : ℕ)

namespace MatchedBuildTracker

def forBuild {α : Type*} (build : HashJoinBuild α) : MatchedBuildTracker :=
  match build.i32DenseUniqueRows with
  | some rows => .denseI32 rows.min (List.replicate rows.slots.len false) 0
  | none => .set ∅

def emptySet : MatchedBuildTracker := .set ∅

def markRef (tracker : MatchedBuildTracker) (buildRef : BuildRowRef) : MatchedBuildTracker :=
  match tracker with
  | .set rows => .set (insert buildRef rows)
  | .denseI32 .. => tracker

def markRefs (tracker : MatchedBuildTracker) (refs : List BuildRowRef) : MatchedBuildTracker :=
  match tracker with
  | .set rows => .set (rows ∪ refs.toFinset)
  | .denseI32 .. => tracker

def markI32Key (tracker : MatchedBuildTracker) (key : Int32) : MatchedBuildTracker :=
  match tracker with
  | .set _ => tracker
  | .denseI32 min isMatched matchedCount =>
    match checkedSigned 32 (key.toInt - min) with
    | none => tracker
    | some index =>
      let index := asUnsigned 64 index
      if isMatched[index]? = some false then
        .denseI32 min (isMatched.set index true) (matchedCount + 1)
      else tracker

def isMatched (tracker : MatchedBuildTracker) (buildRef : BuildRowRef) : Bool :=
  match tracker with
  | .set rows => decide (buildRef ∈ rows)
  | .denseI32 .. => false

def allDenseI32Matched : MatchedBuildTracker → Bool
  | .denseI32 _ isMatched matchedCount => matchedCount = isMatched.length
  | .set _ => false

end MatchedBuildTracker
end Dodam.Execution

/-! ## The Bloom filter has no false negatives

Setting a bit keeps every bit that is set, and the mask keeps every bit inside
the words of the filter; so a row inserted once is answered from then on.
-/
namespace Dodam.Execution
open Foundation

namespace BloomFilter

/-- Every masked hash is a bit of some word. -/
def Valid (filter : BloomFilter) : Prop := filter.mask / 64 < filter.bits.length

theorem valid_new (expectedRows : ℕ) : (BloomFilter.new expectedRows).Valid := by
  unfold Valid BloomFilter.new
  dsimp only
  rw [List.length_replicate]
  omega

variable {filter : BloomFilter}

theorem Valid.set (h : filter.Valid) (hash : ℕ) : (filter.set hash).Valid := by
  unfold Valid at h ⊢
  simpa [BloomFilter.set] using h

theorem Valid.word_lt (h : filter.Valid) (hash : ℕ) :
    (hash &&& filter.mask) / 64 < filter.bits.length :=
  lt_of_le_of_lt (Nat.div_le_div_right Nat.and_le_right) h

theorem get_set_self (h : filter.Valid) (hash : ℕ) : (filter.set hash).get hash = true := by
  have hlt := h.word_lt hash
  simp only [BloomFilter.get,BloomFilter.set,List.getD_eq_getElem?_getD]
  rw [List.getElem?_modify_eq,List.getElem?_eq_getElem hlt]
  change Nat.testBit (_ ||| _) _ = true
  rw [Nat.testBit_or,Nat.testBit_two_pow_self,Bool.or_true]

theorem get_set {hash : ℕ} (h : filter.get hash = true) (other : ℕ) :
    (filter.set other).get hash = true := by
  simp only [BloomFilter.get,BloomFilter.set,List.getD_eq_getElem?_getD] at h ⊢
  rw [List.getElem?_modify]
  split
  · cases hw : filter.bits[(hash &&& filter.mask) / 64]? with
    | none =>
      rw [hw] at h
      simp at h
    | some word =>
      rw [hw,Option.getD_some] at h
      change (word ||| _).testBit _ = true
      rw [Nat.testBit_or,h,Bool.true_or]
  · simpa using h

theorem Valid.foldl_set (h : filter.Valid) (hashes : List ℕ) :
    (hashes.foldl BloomFilter.set filter).Valid := by
  induction hashes generalizing filter with
  | nil => exact h
  | cons hash hashes ih => exact ih (h.set hash)

theorem get_foldl_set {hash : ℕ} (h : filter.get hash = true)
    (hashes : List ℕ) : (hashes.foldl BloomFilter.set filter).get hash = true := by
  induction hashes generalizing filter with
  | nil => exact h
  | cons other hashes ih => exact ih (get_set h other)

theorem get_foldl_set_mem (h : filter.Valid) {hashes : List ℕ} {hash : ℕ}
    (hm : hash ∈ hashes) : (hashes.foldl BloomFilter.set filter).get hash = true := by
  induction hashes generalizing filter with
  | nil => simp at hm
  | cons other hashes ih =>
    rcases List.mem_cons.mp hm with rfl | hm
    · exact get_foldl_set (get_set_self h hash) hashes
    · exact ih (h.set other) hm

variable (hashRowWithSalt : RowHash)

theorem Valid.insert (h : filter.Valid) (row : OwnedRow) :
    (filter.insert hashRowWithSalt row).Valid :=
  h.foldl_set _

theorem mightContain_insert_self (h : filter.Valid) (row : OwnedRow) :
    (filter.insert hashRowWithSalt row).mightContain hashRowWithSalt row = true :=
  List.all_eq_true.mpr fun _ hm => get_foldl_set_mem h hm

theorem mightContain_insert {row : OwnedRow}
    (h : filter.mightContain hashRowWithSalt row = true) (other : OwnedRow) :
    (filter.insert hashRowWithSalt other).mightContain hashRowWithSalt row = true :=
  List.all_eq_true.mpr fun hash hm => get_foldl_set (List.all_eq_true.mp h hash hm) _

end BloomFilter
end Dodam.Execution
