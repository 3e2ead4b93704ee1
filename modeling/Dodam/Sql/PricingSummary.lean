import Mathlib.Tactic.Abel
import Dodam.Foundation.KeyedTable

/-! # Groups of the pricing summary

The groups of a pair of flags: up to eight pairs of single bytes have slots of their own, in the
order in which they come, and everything else goes to a list.
-/
namespace Dodam.Sql
open Foundation

section State
variable {R : Type*} [CommRing R]

/-- Sums and the count of a group; the sums are exact. -/
@[ext] structure PricingSummaryState (R : Type*) where
  sumQty : R
  sumBasePrice : R
  sumDiscPrice : R
  sumCharge : R
  sumDiscount : R
  countOrder : ℕ
deriving DecidableEq

namespace PricingSummaryState

def default : PricingSummaryState R := ⟨0,0,0,0,0,0⟩

def update (state : PricingSummaryState R) (quantity extendedprice discount tax : R) : PricingSummaryState R :=
  let discounted := extendedprice * (1 - discount)
  ⟨state.sumQty + quantity,state.sumBasePrice + extendedprice,state.sumDiscPrice + discounted,
    state.sumCharge + discounted * (1 + tax),state.sumDiscount + discount,state.countOrder + 1⟩

def merge (state other : PricingSummaryState R) : PricingSummaryState R :=
  ⟨state.sumQty + other.sumQty,state.sumBasePrice + other.sumBasePrice,state.sumDiscPrice + other.sumDiscPrice,
    state.sumCharge + other.sumCharge,state.sumDiscount + other.sumDiscount,state.countOrder + other.countOrder⟩

instance : Zero (PricingSummaryState R) := ⟨default⟩

instance : Add (PricingSummaryState R) := ⟨merge⟩

instance : AddCommMonoid (PricingSummaryState R) where
  add_assoc a b c := by ext <;> exact add_assoc ..
  zero_add a := by ext <;> exact zero_add _
  add_zero a := by ext <;> exact add_zero _
  add_comm a b := by ext <;> exact add_comm ..
  nsmul := nsmulRec

end PricingSummaryState

structure PricingSummaryRow (R : Type*) where
  returnflag : String
  linestatus : String
  state : PricingSummaryState R

/-- `pricing_summary_group_state`, with what is done to the state. -/
def pricingSummaryGroupState (change : PricingSummaryState R → PricingSummaryState R) (groups : List (PricingSummaryRow R))
    (returnflag linestatus : String) : List (PricingSummaryRow R) :=
  match groups with
  | [] => [⟨returnflag,linestatus,change .default⟩]
  | row :: groups =>
    if row.returnflag = returnflag ∧ row.linestatus = linestatus then { row with state := change row.state } :: groups
    else row :: pricingSummaryGroupState change groups returnflag linestatus

end State

def singleAsciiByte (value : String) : Option UInt8 :=
  match value.toList with
  | [c] => if c.toNat < 128 then some (UInt8.ofNat c.toNat) else none
  | _ => none

/-- `char::from(byte).to_string()`. -/
def byteText (byte : UInt8) : String := String.ofList [Char.ofNat byte.toNat]

def slotKey (returnflag linestatus : UInt8) : UInt16 := (returnflag.toUInt16 <<< 8) ||| linestatus.toUInt16

def slotReturnflag (key : UInt16) : UInt8 := (key >>> 8).toUInt8

def slotLinestatus (key : UInt16) : UInt8 := (key &&& 255).toUInt8

section Slots
variable {R : Type*} [CommRing R]

/-- The slots that are used, at most eight of them, and the rows beside them. -/
structure PricingSummaryGroupSlots (R : Type*) where
  slots : List (UInt16 × PricingSummaryState R)
  overflow : List (PricingSummaryRow R)
  capacity : slots.length ≤ 8

def changeSlot (change : PricingSummaryState R → PricingSummaryState R) (slots : List (UInt16 × PricingSummaryState R))
    (key : UInt16) : List (UInt16 × PricingSummaryState R) :=
  match slots with
  | [] => []
  | slot :: slots => if slot.1 = key then (slot.1,change slot.2) :: slots else slot :: changeSlot change slots key

omit [CommRing R] in
theorem length_changeSlot (change : PricingSummaryState R → PricingSummaryState R)
    (slots : List (UInt16 × PricingSummaryState R)) (key : UInt16) : (changeSlot change slots key).length = slots.length := by
  induction slots with
  | nil => rfl
  | cons slot slots ih =>
    unfold changeSlot
    split_ifs
    · rfl
    · exact congrArg (· + 1) ih

omit [CommRing R] in
theorem changeSlot_capacity {slots : List (UInt16 × PricingSummaryState R)} (h : slots.length ≤ 8)
    (change : PricingSummaryState R → PricingSummaryState R) (key : UInt16) : (changeSlot change slots key).length ≤ 8 := by
  rw [length_changeSlot]
  exact h

theorem room_capacity {α : Type*} {slots : List α} (h : slots.length < 8) (slot : α) : (slots ++ [slot]).length ≤ 8 := by
  rw [List.length_append]
  exact h

namespace PricingSummaryGroupSlots

def new : PricingSummaryGroupSlots R := ⟨[],[],Nat.zero_le 8⟩

/-- `state_for_key_mut`, with what is done to the state. -/
def stateForKey (table : PricingSummaryGroupSlots R) (returnflag linestatus : UInt8)
    (change : PricingSummaryState R → PricingSummaryState R) : PricingSummaryGroupSlots R :=
  if slotKey returnflag linestatus ∈ table.slots.map Prod.fst then
    { table with
      slots := changeSlot change table.slots (slotKey returnflag linestatus)
      capacity := changeSlot_capacity table.capacity change _ }
  else if hroom : table.slots.length < 8 then
    { table with
      slots := table.slots ++ [(slotKey returnflag linestatus,change .default)]
      capacity := room_capacity hroom _ }
  else
    { table with overflow := pricingSummaryGroupState change table.overflow (byteText returnflag) (byteText linestatus) }

def updateKey (table : PricingSummaryGroupSlots R) (returnflag linestatus : UInt8)
    (change : PricingSummaryState R → PricingSummaryState R) : PricingSummaryGroupSlots R :=
  table.stateForKey returnflag linestatus change

def updateKeyValues (table : PricingSummaryGroupSlots R) (returnflag linestatus : UInt8)
    (quantity extendedprice discount tax : R) : PricingSummaryGroupSlots R :=
  table.stateForKey returnflag linestatus fun state => state.update quantity extendedprice discount tax

def update (table : PricingSummaryGroupSlots R) (returnflag linestatus : String)
    (change : PricingSummaryState R → PricingSummaryState R) : PricingSummaryGroupSlots R :=
  match singleAsciiByte returnflag,singleAsciiByte linestatus with
  | some returnflag,some linestatus => table.updateKey returnflag linestatus change
  | _,_ => { table with overflow := pricingSummaryGroupState change table.overflow returnflag linestatus }

def mergeSlot (table : PricingSummaryGroupSlots R) (slot : UInt16 × PricingSummaryState R) : PricingSummaryGroupSlots R :=
  if slot.1 ∈ table.slots.map Prod.fst then
    { table with
      slots := changeSlot (fun state => state.merge slot.2) table.slots slot.1
      capacity := changeSlot_capacity table.capacity _ _ }
  else if hroom : table.slots.length < 8 then
    { table with
      slots := table.slots ++ [slot]
      capacity := room_capacity hroom slot }
  else
    { table with
      overflow := pricingSummaryGroupState (fun state => state.merge slot.2) table.overflow
        (byteText (slotReturnflag slot.1)) (byteText (slotLinestatus slot.1)) }

def mergeRow (table : PricingSummaryGroupSlots R) (row : PricingSummaryRow R) : PricingSummaryGroupSlots R :=
  { table with
    overflow := pricingSummaryGroupState (fun state => state.merge row.state) table.overflow row.returnflag row.linestatus }

def mergeSlots (table other : PricingSummaryGroupSlots R) : PricingSummaryGroupSlots R :=
  other.overflow.foldl mergeRow (other.slots.foldl mergeSlot table)

def intoRows (table : PricingSummaryGroupSlots R) : List (PricingSummaryRow R) :=
  (table.slots.map fun slot => ⟨byteText (slotReturnflag slot.1),byteText (slotLinestatus slot.1),slot.2⟩) ++ table.overflow

end PricingSummaryGroupSlots

end Slots
end Dodam.Sql

/-! ## The groups are a finite map

Whatever the order of updates and merges, the rows have the pairs of the updates
and their totals. A pair has one row as long as no merge gives it a slot in a table
while one of the two tables has it in its list.
-/
namespace Dodam.Sql
open Foundation

section Keys

theorem toNat_slotKey (returnflag linestatus : UInt8) :
    (slotKey returnflag linestatus).toNat = returnflag.toNat * 256 + linestatus.toNat := by
  have hreturnflag : returnflag.toNat < 256 := returnflag.toNat_lt
  have hlinestatus : linestatus.toNat < 2 ^ 8 := linestatus.toNat_lt
  have hor := Nat.shiftLeft_add_eq_or_of_lt hlinestatus returnflag.toNat
  rw [Nat.shiftLeft_eq] at hor
  unfold slotKey
  simp only [UInt16.toNat_or,UInt16.toNat_shiftLeft,UInt8.toNat_toUInt16]
  have hshift : returnflag.toNat <<< ((8 : UInt16).toNat % 16) % 2 ^ 16 = returnflag.toNat * 2 ^ 8 := by
    rw [Nat.shiftLeft_eq]
    exact Nat.mod_eq_of_lt (by change returnflag.toNat * 2 ^ 8 < 2 ^ 16; omega)
  rw [hshift,← hor]

theorem toNat_slotReturnflag (key : UInt16) : (slotReturnflag key).toNat = key.toNat / 256 := by
  have hkey : key.toNat < 65536 := key.toNat_lt
  unfold slotReturnflag
  simp
  rw [Nat.shiftRight_eq_div_pow]
  omega

theorem toNat_slotLinestatus (key : UInt16) : (slotLinestatus key).toNat = key.toNat % 256 := by
  have hmask : key.toNat % 256 &&& 255 = key.toNat % 256 % 256 := Nat.and_two_pow_sub_one_eq_mod _ 8
  unfold slotLinestatus
  simp [hmask]

theorem slotReturnflag_slotKey (returnflag linestatus : UInt8) : slotReturnflag (slotKey returnflag linestatus) = returnflag := by
  have hlinestatus : linestatus.toNat < 256 := linestatus.toNat_lt
  apply UInt8.toNat_inj.mp
  rw [toNat_slotReturnflag,toNat_slotKey]
  omega

theorem slotLinestatus_slotKey (returnflag linestatus : UInt8) : slotLinestatus (slotKey returnflag linestatus) = linestatus := by
  have hlinestatus : linestatus.toNat < 256 := linestatus.toNat_lt
  apply UInt8.toNat_inj.mp
  rw [toNat_slotLinestatus,toNat_slotKey]
  omega

theorem slotKey_parts (key : UInt16) : slotKey (slotReturnflag key) (slotLinestatus key) = key := by
  apply UInt16.toNat_inj.mp
  rw [toNat_slotKey,toNat_slotReturnflag,toNat_slotLinestatus]
  omega

theorem toNat_charOfNat {n : ℕ} (hn : n < 256) : (Char.ofNat n).toNat = n := by
  have hvalid : n.isValidChar := Or.inl (by omega)
  unfold Char.ofNat
  rw [dif_pos hvalid]
  rfl

theorem byteText_injective : Function.Injective byteText := by
  intro a b h
  have hchars : [Char.ofNat a.toNat] = [Char.ofNat b.toNat] := String.ofList_injective h
  have hchar := congrArg Char.toNat (List.singleton_inj.mp hchars)
  rw [toNat_charOfNat a.toNat_lt,toNat_charOfNat b.toNat_lt] at hchar
  exact UInt8.toNat_inj.mp hchar

theorem byteText_of_singleAsciiByte {value : String} {byte : UInt8} (h : singleAsciiByte value = some byte) : byteText byte = value := by
  unfold singleAsciiByte at h
  split at h
  · rename_i c hvalue
    split_ifs at h with hascii
    have hbyte : byte.toNat = c.toNat := by
      have hmod : (UInt8.ofNat c.toNat).toNat = c.toNat % 256 := UInt8.toNat_ofNat'
      rw [← Option.some.inj h,hmod]
      omega
    unfold byteText
    rw [hbyte,Char.ofNat_toNat,← hvalue]
    exact String.ofList_toList
  · cases h

def slotPair (key : UInt16) : String × String := (byteText (slotReturnflag key),byteText (slotLinestatus key))

theorem slotPair_injective : Function.Injective slotPair := by
  intro a b h
  have hreturnflag := byteText_injective (congrArg Prod.fst h)
  have hlinestatus := byteText_injective (congrArg Prod.snd h)
  rw [← slotKey_parts a,hreturnflag,hlinestatus]
  exact slotKey_parts b

theorem slotPair_slotKey (returnflag linestatus : UInt8) :
    slotPair (slotKey returnflag linestatus) = (byteText returnflag,byteText linestatus) := by
  unfold slotPair
  rw [slotReturnflag_slotKey,slotLinestatus_slotKey]

end Keys

section Tables
variable {R : Type*} [CommRing R]

def PricingSummaryRow.entry (row : PricingSummaryRow R) : (String × String) × PricingSummaryState R :=
  ((row.returnflag,row.linestatus),row.state)

theorem entry_pricingSummaryGroupState (change : PricingSummaryState R → PricingSummaryState R) (groups : List (PricingSummaryRow R))
    (returnflag linestatus : String) :
    (pricingSummaryGroupState change groups returnflag linestatus).map PricingSummaryRow.entry =
      modifyAt change 0 (groups.map PricingSummaryRow.entry) (returnflag,linestatus) := by
  induction groups with
  | nil => rfl
  | cons row groups ih =>
    unfold pricingSummaryGroupState
    rw [List.map_cons]
    unfold modifyAt
    by_cases hrow : row.returnflag = returnflag ∧ row.linestatus = linestatus
    · have hentry : row.entry.1 = (returnflag,linestatus) := Prod.ext hrow.1 hrow.2
      rw [if_pos hrow,if_pos hentry]
      rfl
    · have hentry : row.entry.1 ≠ (returnflag,linestatus) :=
        fun h => hrow ⟨congrArg Prod.fst h,congrArg Prod.snd h⟩
      rw [if_neg hrow,if_neg hentry,List.map_cons,ih]

theorem changeSlot_eq_modifyAt (change : PricingSummaryState R → PricingSummaryState R)
    {slots : List (UInt16 × PricingSummaryState R)} {key : UInt16} (h : key ∈ slots.map Prod.fst) :
    changeSlot change slots key = modifyAt change 0 slots key := by
  induction slots with
  | nil => cases h
  | cons slot slots ih =>
    unfold changeSlot modifyAt
    split_ifs with hkey
    · rfl
    · rcases List.mem_cons.mp h with h | h
      · exact absurd h.symm hkey
      · rw [ih h]

namespace PricingSummaryGroupSlots

def keys (table : PricingSummaryGroupSlots R) : List UInt16 := table.slots.map Prod.fst

def listed (table : PricingSummaryGroupSlots R) : List (String × String) := table.overflow.map fun row => row.entry.1

def entries (table : PricingSummaryGroupSlots R) : List ((String × String) × PricingSummaryState R) :=
  table.intoRows.map PricingSummaryRow.entry

omit [CommRing R] in
theorem entries_eq (table : PricingSummaryGroupSlots R) :
    table.entries = table.slots.map (Prod.map slotPair id) ++ table.overflow.map PricingSummaryRow.entry := by
  unfold entries intoRows
  rw [List.map_append,List.map_map]
  rfl

omit [CommRing R] in
theorem entries_keys (table : PricingSummaryGroupSlots R) : table.entries.map Prod.fst = table.keys.map slotPair ++ table.listed := by
  rw [entries_eq,List.map_append,List.map_map,List.map_map]
  unfold keys listed
  rw [List.map_map]
  rfl

omit [CommRing R] in
theorem listed_eq (table : PricingSummaryGroupSlots R) : table.listed = (table.overflow.map PricingSummaryRow.entry).map Prod.fst :=
  (List.map_map ..).symm

def IsMap (table : PricingSummaryGroupSlots R) : Prop := (table.entries.map Prod.fst).Nodup

omit [CommRing R] in
theorem isMap_iff (table : PricingSummaryGroupSlots R) :
    table.IsMap ↔ table.keys.Nodup ∧ table.listed.Nodup ∧ ∀ key ∈ table.keys, slotPair key ∉ table.listed := by
  unfold IsMap
  rw [entries_keys,List.nodup_append',List.nodup_map_iff slotPair_injective]
  apply and_congr_right'
  apply and_congr_right'
  constructor
  · intro h key hkey hlisted
    exact h (List.mem_map_of_mem hkey) hlisted
  · intro h pair hpair hlisted
    obtain ⟨key,hkey,rfl⟩ := List.mem_map.mp hpair
    exact h key hkey hlisted

theorem stateForKey_cases (table : PricingSummaryGroupSlots R) (returnflag linestatus : UInt8)
    (change : PricingSummaryState R → PricingSummaryState R) :
    ((slotKey returnflag linestatus ∈ table.keys ∨ table.keys.length < 8) ∧
      (table.stateForKey returnflag linestatus change).slots = modifyAt change 0 table.slots (slotKey returnflag linestatus) ∧
      (table.stateForKey returnflag linestatus change).overflow = table.overflow) ∨
    ((slotKey returnflag linestatus ∉ table.keys ∧ 8 ≤ table.keys.length) ∧
      (table.stateForKey returnflag linestatus change).slots = table.slots ∧
      (table.stateForKey returnflag linestatus change).overflow =
        pricingSummaryGroupState change table.overflow (byteText returnflag) (byteText linestatus)) := by
  have hlength : table.keys.length = table.slots.length := List.length_map ..
  rw [hlength]
  unfold stateForKey
  split_ifs with hkey hroom
  · exact Or.inl ⟨Or.inl hkey,changeSlot_eq_modifyAt change hkey,rfl⟩
  · exact Or.inl ⟨Or.inr hroom,(modifyAt_of_notMem hkey).symm,rfl⟩
  · exact Or.inr ⟨⟨hkey,Nat.le_of_not_lt hroom⟩,rfl,rfl⟩

theorem mergeSlot_eq (table : PricingSummaryGroupSlots R) (slot : UInt16 × PricingSummaryState R) :
    table.mergeSlot slot =
      table.stateForKey (slotReturnflag slot.1) (slotLinestatus slot.1) fun state => state.merge slot.2 := by
  have hdefault : (PricingSummaryState.default : PricingSummaryState R).merge slot.2 = slot.2 := zero_add slot.2
  unfold mergeSlot stateForKey
  simp only [slotKey_parts,hdefault]

end PricingSummaryGroupSlots
end Tables
end Dodam.Sql

/-! ## Runs over pricing summary tables

Tables are made, updated and merged into one another in any order. Totals are never
lost; the rows are a finite map as long as each merge, by the keys and lists of its two
tables alone, leaves no pair both in a slot and in a list.
-/
namespace Dodam.Sql
open Foundation

variable {R : Type*} [CommRing R]

/-- How a table came about, with the values of its updates. -/
inductive SlotRun (R : Type*) where
  | new
  | update (run : SlotRun R) (returnflag linestatus : String) (quantity extendedprice discount tax : R)
  | updateKey (run : SlotRun R) (returnflag linestatus : UInt8) (quantity extendedprice discount tax : R)
  | updateKeyValues (run : SlotRun R) (returnflag linestatus : UInt8) (quantity extendedprice discount tax : R)
  | merge (run other : SlotRun R)

namespace SlotRun

def table : SlotRun R → PricingSummaryGroupSlots R
  | new => .new
  | update run returnflag linestatus quantity extendedprice discount tax =>
    run.table.update returnflag linestatus fun state => state.update quantity extendedprice discount tax
  | updateKey run returnflag linestatus quantity extendedprice discount tax =>
    run.table.updateKey returnflag linestatus fun state => state.update quantity extendedprice discount tax
  | updateKeyValues run returnflag linestatus quantity extendedprice discount tax =>
    run.table.updateKeyValues returnflag linestatus quantity extendedprice discount tax
  | merge run other => run.table.mergeSlots other.table

def amount (quantity extendedprice discount tax : R) : PricingSummaryState R :=
  ⟨quantity,extendedprice,extendedprice * (1 - discount),extendedprice * (1 - discount) * (1 + tax),discount,1⟩

/-- The updates of all tables that went into this one. -/
def updates : SlotRun R → List ((String × String) × PricingSummaryState R)
  | new => []
  | update run returnflag linestatus quantity extendedprice discount tax =>
    run.updates ++ [((returnflag,linestatus),amount quantity extendedprice discount tax)]
  | updateKey run returnflag linestatus quantity extendedprice discount tax =>
    run.updates ++ [((byteText returnflag,byteText linestatus),amount quantity extendedprice discount tax)]
  | updateKeyValues run returnflag linestatus quantity extendedprice discount tax =>
    run.updates ++ [((byteText returnflag,byteText linestatus),amount quantity extendedprice discount tax)]
  | merge run other => run.updates ++ other.updates

def parts : SlotRun R → List (SlotRun R)
  | new => [new]
  | update run returnflag linestatus quantity extendedprice discount tax =>
    update run returnflag linestatus quantity extendedprice discount tax :: run.parts
  | updateKey run returnflag linestatus quantity extendedprice discount tax =>
    updateKey run returnflag linestatus quantity extendedprice discount tax :: run.parts
  | updateKeyValues run returnflag linestatus quantity extendedprice discount tax =>
    updateKeyValues run returnflag linestatus quantity extendedprice discount tax :: run.parts
  | merge run other => merge run other :: (run.parts ++ other.parts)

end SlotRun

/-- The keys with slots once `added` have asked for slots too: eight at most, in order of arrival. -/
def slotKeysWith (keys added : List UInt16) : List UInt16 := (keys ++ added.filter (· ∉ keys)).take 8

theorem slotKeysWith_full {keys : List UInt16} (h : keys.length = 8) (added : List UInt16) : slotKeysWith keys added = keys := by
  unfold slotKeysWith
  rw [← h]
  exact List.take_left

theorem slotKeysWith_cons {keys added : List UInt16} {key : UInt16} (hkeys : keys.length ≤ 8) (hkey : key ∉ added) :
    slotKeysWith keys (key :: added) = slotKeysWith (slotKeysWith keys [key]) added := by
  rcases Nat.lt_or_eq_of_le hkeys with hroom | hfull
  · unfold slotKeysWith
    by_cases hmem : key ∈ keys
    · have hnone : [key].filter (· ∉ keys) = [] := by simpa using hmem
      have hsame : (key :: added).filter (· ∉ keys) = added.filter (· ∉ keys) := List.filter_cons_of_neg (by simpa using hmem)
      rw [hnone,hsame,List.append_nil,List.take_of_length_le hkeys]
    · have hone : [key].filter (· ∉ keys) = [key] := by simpa using hmem
      have hcons : (key :: added).filter (· ∉ keys) = key :: added.filter (· ∉ keys) := List.filter_cons_of_pos (by simpa using hmem)
      have hfilter : added.filter (· ∉ keys ++ [key]) = added.filter (· ∉ keys) := by
        apply List.filter_congr
        intro k hk
        have hne : k ≠ key := fun heq => hkey (heq ▸ hk)
        simp [hne]
      rw [hone,hcons,List.take_of_length_le (room_capacity hroom key),hfilter,List.append_assoc]
      rfl
  · rw [slotKeysWith_full hfull,slotKeysWith_full hfull,slotKeysWith_full hfull]

namespace PricingSummaryGroupSlots

/-- Slots and rows are merged one after the other. -/
def absorb (table : PricingSummaryGroupSlots R) (slots : List (UInt16 × PricingSummaryState R)) (rows : List (PricingSummaryRow R)) :
    PricingSummaryGroupSlots R :=
  rows.foldl mergeRow (slots.foldl mergeSlot table)

/-- None of the keys with slots after this has its pair in the list. -/
def Apart (table : PricingSummaryGroupSlots R) (added : List UInt16) (listed : List (String × String)) : Prop :=
  ∀ key ∈ slotKeysWith table.keys added, slotPair key ∉ table.listed ∧ slotPair key ∉ listed

instance (table : PricingSummaryGroupSlots R) (added : List UInt16) (listed : List (String × String)) :
    Decidable (table.Apart added listed) :=
  inferInstanceAs (Decidable (∀ key ∈ slotKeysWith table.keys added, slotPair key ∉ table.listed ∧ slotPair key ∉ listed))

section Slots
variable (table : PricingSummaryGroupSlots R) (slot : UInt16 × PricingSummaryState R)

theorem mergeSlot_cases :
    ((slot.1 ∈ table.keys ∨ table.keys.length < 8) ∧
      (table.mergeSlot slot).slots = modifyAt (fun state => state.merge slot.2) 0 table.slots slot.1 ∧
      (table.mergeSlot slot).overflow = table.overflow) ∨
    ((slot.1 ∉ table.keys ∧ 8 ≤ table.keys.length) ∧
      (table.mergeSlot slot).slots = table.slots ∧
      (table.mergeSlot slot).overflow.map PricingSummaryRow.entry =
        modifyAt (fun state => state.merge slot.2) 0 (table.overflow.map PricingSummaryRow.entry) (slotPair slot.1)) := by
  have h := table.stateForKey_cases (slotReturnflag slot.1) (slotLinestatus slot.1) fun state => state.merge slot.2
  rw [slotKey_parts,← mergeSlot_eq] at h
  rcases h with h | ⟨hkey,hslots,hoverflow⟩
  · exact Or.inl h
  · refine Or.inr ⟨hkey,hslots,?_⟩
    rw [hoverflow,entry_pricingSummaryGroupState]
    rfl

theorem mergeSlot_addsEntry : AddsEntry (slotPair slot.1) slot.2 table.entries (table.mergeSlot slot).entries := by
  have hmerge : ∀ state : PricingSummaryState R, state.merge slot.2 = state + slot.2 := fun _ => rfl
  rw [entries_eq,entries_eq]
  rcases table.mergeSlot_cases slot with ⟨-,hslots,hoverflow⟩ | ⟨-,hslots,hoverflow⟩
  · rw [hslots,hoverflow,modifyAt_map slotPair_injective]
    exact (addsEntry_modifyAt hmerge _ _).append_right _
  · rw [hslots,hoverflow]
    exact (addsEntry_modifyAt hmerge _ _).append_left _

theorem mergeRow_addsEntry (row : PricingSummaryRow R) :
    AddsEntry row.entry.1 row.state table.entries (table.mergeRow row).entries := by
  have hmerge : ∀ state : PricingSummaryState R, state.merge row.state = state + row.state := fun _ => rfl
  rw [entries_eq,entries_eq]
  unfold mergeRow
  rw [entry_pricingSummaryGroupState]
  exact (addsEntry_modifyAt hmerge _ _).append_left _

theorem absorb_sumsTo {updates : List ((String × String) × PricingSummaryState R)} (h : SumsTo table.entries updates)
    (slots : List (UInt16 × PricingSummaryState R)) (rows : List (PricingSummaryRow R)) :
    SumsTo (table.absorb slots rows).entries
      (updates ++ (slots.map (Prod.map slotPair id) ++ rows.map PricingSummaryRow.entry)) := by
  have hslots : SumsTo (slots.foldl mergeSlot table).entries (updates ++ slots.map (Prod.map slotPair id)) :=
    h.foldl mergeSlot_addsEntry slots
  have hrows : SumsTo (table.absorb slots rows).entries (_ ++ rows.map PricingSummaryRow.entry) :=
    hslots.foldl mergeRow_addsEntry rows
  rw [List.append_assoc] at hrows
  exact hrows

omit [CommRing R] in
theorem keys_length_le : table.keys.length ≤ 8 := by
  unfold keys
  rw [List.length_map]
  exact table.capacity

theorem keys_mergeSlot : (table.mergeSlot slot).keys = slotKeysWith table.keys [slot.1] := by
  rcases table.mergeSlot_cases slot with ⟨hkey,hslots,-⟩ | ⟨⟨hkey,hfull⟩,hslots,-⟩
  · unfold keys slotKeysWith
    rw [hslots]
    by_cases hmem : slot.1 ∈ table.keys
    · have hnone : [slot.1].filter (· ∉ table.keys) = [] := by simpa using hmem
      have hsame : (modifyAt (fun state => state.merge slot.2) 0 table.slots slot.1).map Prod.fst = table.slots.map Prod.fst :=
        keys_modifyAt_of_mem hmem
      rw [hsame,← keys,hnone,List.append_nil,List.take_of_length_le table.keys_length_le]
    · have hone : [slot.1].filter (· ∉ table.keys) = [slot.1] := by simpa using hmem
      have hroom : table.keys.length < 8 := hkey.resolve_left hmem
      rw [modifyAt_of_notMem hmem,List.map_append,← keys,hone,List.take_of_length_le (room_capacity hroom slot.1)]
      rfl
  · rw [slotKeysWith_full (Nat.le_antisymm table.keys_length_le hfull)]
    unfold keys
    rw [hslots]

theorem keys_foldl_mergeSlot {slots : List (UInt16 × PricingSummaryState R)} (h : (slots.map Prod.fst).Nodup) :
    (slots.foldl mergeSlot table).keys = slotKeysWith table.keys (slots.map Prod.fst) := by
  induction slots generalizing table with
  | nil =>
    unfold slotKeysWith
    rw [List.map_nil,List.filter_nil,List.append_nil,List.take_of_length_le table.keys_length_le]
    rfl
  | cons slot slots ih =>
    rw [List.map_cons,List.nodup_cons] at h
    rw [List.map_cons,slotKeysWith_cons table.keys_length_le h.1,← keys_mergeSlot]
    exact ih (table.mergeSlot slot) h.2

theorem mem_listed_foldl_mergeSlot {slots : List (UInt16 × PricingSummaryState R)} (h : (slots.map Prod.fst).Nodup)
    {pair : String × String} (hpair : pair ∈ (slots.foldl mergeSlot table).listed) :
    pair ∈ table.listed ∨ ∃ key, key ∉ (slots.foldl mergeSlot table).keys ∧ slotPair key = pair := by
  induction slots generalizing table with
  | nil => exact Or.inl hpair
  | cons slot slots ih =>
    rw [List.map_cons,List.nodup_cons] at h
    rcases ih (table.mergeSlot slot) h.2 hpair with hstep | hnone
    · rcases table.mergeSlot_cases slot with ⟨-,-,hoverflow⟩ | ⟨⟨hkey,hfull⟩,hslots,hoverflow⟩
      · left
        unfold listed at hstep
        rw [hoverflow] at hstep
        exact hstep
      · rw [listed_eq,hoverflow,mem_keys_modifyAt,← listed_eq] at hstep
        rcases hstep with rfl | hstep
        · -- the table is full, so the key never gets a slot
          right
          refine ⟨slot.1,?_,rfl⟩
          have hkeys : (table.mergeSlot slot).keys = table.keys := congrArg (List.map Prod.fst) hslots
          have hlength : (table.mergeSlot slot).keys.length = 8 := by
            rw [hkeys]
            exact Nat.le_antisymm table.keys_length_le hfull
          rw [List.foldl_cons,keys_foldl_mergeSlot _ h.2,slotKeysWith_full hlength,hkeys]
          exact hkey
        · exact Or.inl hstep
    · exact Or.inr hnone

end Slots

section Absorb
variable {table : PricingSummaryGroupSlots R} {slots : List (UInt16 × PricingSummaryState R)} {rows : List (PricingSummaryRow R)}

theorem listed_mergeRow (table : PricingSummaryGroupSlots R) (row : PricingSummaryRow R) :
    (table.mergeRow row).listed =
      (modifyAt (fun state => state.merge row.state) 0 (table.overflow.map PricingSummaryRow.entry) row.entry.1).map Prod.fst := by
  rw [listed_eq]
  unfold mergeRow
  rw [entry_pricingSummaryGroupState]
  rfl

theorem listed_foldl_mergeRow (table : PricingSummaryGroupSlots R) (rows : List (PricingSummaryRow R)) :
    (table.listed.Nodup → (rows.foldl mergeRow table).listed.Nodup) ∧
      ∀ pair, pair ∈ (rows.foldl mergeRow table).listed ↔ pair ∈ table.listed ∨ pair ∈ rows.map fun row => row.entry.1 := by
  induction rows generalizing table with
  | nil => exact ⟨id,fun pair => (or_iff_left List.not_mem_nil).symm⟩
  | cons row rows ih =>
    obtain ⟨hnodup,hmem⟩ := ih (table.mergeRow row)
    constructor
    · intro h
      apply hnodup
      rw [listed_mergeRow]
      rw [listed_eq] at h
      exact nodup_modifyAt h
    · intro pair
      rw [List.foldl_cons,hmem,listed_mergeRow,mem_keys_modifyAt,← listed_eq,List.map_cons,List.mem_cons,or_assoc]
      exact or_left_comm

theorem foldl_mergeSlot_nodup (slots : List (UInt16 × PricingSummaryState R)) (hkeys : table.keys.Nodup) (hlisted : table.listed.Nodup) :
    (slots.foldl mergeSlot table).keys.Nodup ∧ (slots.foldl mergeSlot table).listed.Nodup := by
  induction slots generalizing table with
  | nil => exact ⟨hkeys,hlisted⟩
  | cons slot slots ih =>
    rcases table.mergeSlot_cases slot with ⟨-,hslots,hoverflow⟩ | ⟨-,hslots,hoverflow⟩
    · apply ih
      · unfold keys
        rw [hslots]
        exact nodup_modifyAt hkeys
      · unfold listed
        rw [hoverflow]
        exact hlisted
    · apply ih
      · unfold keys
        rw [hslots]
        exact hkeys
      · rw [listed_eq,hoverflow]
        rw [listed_eq] at hlisted
        exact nodup_modifyAt hlisted

theorem foldl_mergeSlot_listed (slots : List (UInt16 × PricingSummaryState R)) {pair : String × String} (h : pair ∈ table.listed) :
    pair ∈ (slots.foldl mergeSlot table).listed := by
  induction slots generalizing table with
  | nil => exact h
  | cons slot slots ih =>
    apply ih
    rcases table.mergeSlot_cases slot with ⟨-,-,hoverflow⟩ | ⟨-,-,hoverflow⟩
    · unfold listed
      rw [hoverflow]
      exact h
    · rw [listed_eq,hoverflow,mem_keys_modifyAt,← listed_eq]
      exact Or.inr h

theorem keys_foldl_mergeRow (table : PricingSummaryGroupSlots R) (rows : List (PricingSummaryRow R)) :
    (rows.foldl mergeRow table).keys = table.keys := by
  induction rows generalizing table with
  | nil => rfl
  | cons row rows ih => exact ih (table.mergeRow row)

theorem absorb_isMap_iff (htable : table.IsMap) (hslots : (slots.map Prod.fst).Nodup) :
    (table.absorb slots rows).IsMap ↔ table.Apart (slots.map Prod.fst) (rows.map fun row => row.entry.1) := by
  obtain ⟨hkeys,hlisted,-⟩ := table.isMap_iff.mp htable
  obtain ⟨hkeys',hlisted'⟩ := foldl_mergeSlot_nodup slots hkeys hlisted
  obtain ⟨hnodup,hmem⟩ := listed_foldl_mergeRow (slots.foldl mergeSlot table) rows
  have habsorb : (table.absorb slots rows).keys = (slots.foldl mergeSlot table).keys := keys_foldl_mergeRow _ rows
  rw [isMap_iff,habsorb]
  unfold Apart
  rw [← keys_foldl_mergeSlot table hslots]
  constructor
  · rintro ⟨-,-,hapart⟩ key hkey
    have hnone := hapart key hkey
    constructor
    · intro h
      exact hnone ((hmem _).mpr (Or.inl (foldl_mergeSlot_listed slots h)))
    · intro h
      exact hnone ((hmem _).mpr (Or.inr h))
  · intro hapart
    refine ⟨hkeys',hnodup hlisted',?_⟩
    intro key hkey hin
    rcases (hmem _).mp hin with h | h
    · rcases mem_listed_foldl_mergeSlot table hslots h with h | ⟨other,hother,hpair⟩
      · exact (hapart key hkey).1 h
      · exact hother (slotPair_injective hpair ▸ hkey)
    · exact (hapart key hkey).2 h

end Absorb

end PricingSummaryGroupSlots

open PricingSummaryGroupSlots

def keyAsked (returnflag linestatus : String) : List UInt16 :=
  match singleAsciiByte returnflag,singleAsciiByte linestatus with
  | some returnflag,some linestatus => [slotKey returnflag linestatus]
  | _,_ => []

/-- The pair that an update lists, which is not of single bytes. -/
def pairListed (returnflag linestatus : String) : List (String × String) :=
  match singleAsciiByte returnflag,singleAsciiByte linestatus with
  | some _,some _ => []
  | _,_ => [(returnflag,linestatus)]

namespace SlotRun

def StepApart : SlotRun R → Prop
  | new => True
  | update run returnflag linestatus _ _ _ _ =>
    run.table.Apart (keyAsked returnflag linestatus) (pairListed returnflag linestatus)
  | updateKey run returnflag linestatus _ _ _ _ => run.table.Apart [slotKey returnflag linestatus] []
  | updateKeyValues run returnflag linestatus _ _ _ _ => run.table.Apart [slotKey returnflag linestatus] []
  | merge run other => run.table.Apart other.table.keys other.table.listed

instance : DecidablePred (StepApart (R := R))
  | new => .isTrue trivial
  | update run returnflag linestatus _ _ _ _ =>
    inferInstanceAs (Decidable (run.table.Apart (keyAsked returnflag linestatus) (pairListed returnflag linestatus)))
  | updateKey run returnflag linestatus _ _ _ _ => inferInstanceAs (Decidable (run.table.Apart [slotKey returnflag linestatus] []))
  | updateKeyValues run returnflag linestatus _ _ _ _ => inferInstanceAs (Decidable (run.table.Apart [slotKey returnflag linestatus] []))
  | merge run other => inferInstanceAs (Decidable (run.table.Apart other.table.keys other.table.listed))

def Apart (run : SlotRun R) : Prop := ∀ part ∈ run.parts, part.StepApart

instance (run : SlotRun R) : Decidable run.Apart := inferInstanceAs (Decidable (∀ part ∈ run.parts, part.StepApart))

/-- The pairs and totals of a run, each pair once. -/
def IsCorrect (run : SlotRun R) : Prop := IsTotals run.table.entries run.updates

theorem stateForKey_eq_absorb (table : PricingSummaryGroupSlots R) (returnflag linestatus : UInt8)
    (quantity extendedprice discount tax : R) :
    (table.stateForKey returnflag linestatus fun state => state.update quantity extendedprice discount tax) =
      table.absorb [(slotKey returnflag linestatus,amount quantity extendedprice discount tax)] [] := by
  have hmerge := table.mergeSlot_eq (slotKey returnflag linestatus,amount quantity extendedprice discount tax)
  rw [slotReturnflag_slotKey,slotLinestatus_slotKey] at hmerge
  exact hmerge.symm

theorem table_update (run : SlotRun R) (returnflag linestatus : String) (quantity extendedprice discount tax : R) :
    ∃ slots rows, (run.update returnflag linestatus quantity extendedprice discount tax).table = run.table.absorb slots rows ∧
      (slots.map Prod.fst).Nodup ∧
      slots.map (Prod.map slotPair id) ++ rows.map PricingSummaryRow.entry =
        [((returnflag,linestatus),amount quantity extendedprice discount tax)] ∧
      slots.map Prod.fst = keyAsked returnflag linestatus ∧ rows.map (fun row => row.entry.1) = pairListed returnflag linestatus := by
  dsimp only [table]
  unfold PricingSummaryGroupSlots.update PricingSummaryGroupSlots.updateKey keyAsked pairListed
  cases hfirst : singleAsciiByte returnflag with
  | none => exact ⟨[],[⟨returnflag,linestatus,_⟩],rfl,List.nodup_nil,rfl,rfl,rfl⟩
  | some first =>
    cases hsecond : singleAsciiByte linestatus with
    | none => exact ⟨[],[⟨returnflag,linestatus,_⟩],rfl,List.nodup_nil,rfl,rfl,rfl⟩
    | some second =>
      have hpair := slotPair_slotKey first second
      rw [byteText_of_singleAsciiByte hfirst,byteText_of_singleAsciiByte hsecond] at hpair
      refine ⟨[(slotKey first second,_)],[],stateForKey_eq_absorb ..,List.nodup_singleton _,?_,rfl,rfl⟩
      rw [← hpair]
      rfl

theorem sumsTo (run : SlotRun R) : SumsTo run.table.entries run.updates := by
  have hbytes : ∀ (run : SlotRun R) returnflag linestatus (quantity extendedprice discount tax : R),
      SumsTo run.table.entries run.updates →
      SumsTo (run.table.stateForKey returnflag linestatus fun state => state.update quantity extendedprice discount tax).entries
        (run.updates ++ [((byteText returnflag,byteText linestatus),amount quantity extendedprice discount tax)]) := by
    intro run returnflag linestatus quantity extendedprice discount tax h
    rw [stateForKey_eq_absorb,← slotPair_slotKey]
    exact run.table.absorb_sumsTo h _ []
  induction run with
  | new => exact SumsTo.refl []
  | update run returnflag linestatus quantity extendedprice discount tax ih =>
    obtain ⟨slots,rows,htable,-,hamount,-,-⟩ := run.table_update returnflag linestatus quantity extendedprice discount tax
    rw [htable]
    have h := run.table.absorb_sumsTo ih slots rows
    rw [hamount] at h
    exact h
  | updateKey run returnflag linestatus quantity extendedprice discount tax ih => exact hbytes run _ _ _ _ _ _ ih
  | updateKeyValues run returnflag linestatus quantity extendedprice discount tax ih => exact hbytes run _ _ _ _ _ _ ih
  | merge run other ih ihother =>
    have h := run.table.absorb_sumsTo ih other.table.slots other.table.overflow
    rw [← entries_eq] at h
    exact h.trans (sumsTo_append (SumsTo.refl _) ihother)

theorem isCorrect_iff (run : SlotRun R) : run.IsCorrect ↔ run.table.IsMap :=
  ⟨fun h => h.nodup,fun h => run.sumsTo.isTotals h⟩

omit [CommRing R] in
theorem mem_parts_self (run : SlotRun R) : run ∈ run.parts := by
  cases run <;> exact List.mem_cons_self

/-- The tables of a run are finite maps just where its steps keep slots and lists apart. -/
theorem isMap_iff_apart (run : SlotRun R) : (∀ part ∈ run.parts, part.table.IsMap) ↔ run.Apart := by
  have hbytes : ∀ (run : SlotRun R) returnflag linestatus (quantity extendedprice discount tax : R), run.table.IsMap →
      ((run.table.stateForKey returnflag linestatus fun state => state.update quantity extendedprice discount tax).IsMap ↔
        run.table.Apart [slotKey returnflag linestatus] []) := by
    intro run returnflag linestatus quantity extendedprice discount tax h
    rw [stateForKey_eq_absorb]
    exact absorb_isMap_iff h (List.nodup_singleton _)
  unfold Apart
  induction run with
  | new =>
    have hnew : (new : SlotRun R).table.IsMap := List.nodup_nil
    have hstep : (new : SlotRun R).StepApart := trivial
    dsimp only [parts]
    rw [List.forall_mem_singleton,List.forall_mem_singleton]
    exact iff_of_true hnew hstep
  | update run returnflag linestatus quantity extendedprice discount tax ih =>
    dsimp only [parts]
    rw [List.forall_mem_cons,List.forall_mem_cons]
    refine (and_congr_left fun hparts => ?_).trans (and_congr_right' ih)
    obtain ⟨slots,rows,htable,hslots,-,hasked,hlisted⟩ := run.table_update returnflag linestatus quantity extendedprice discount tax
    dsimp only [StepApart]
    rw [htable,← hasked,← hlisted]
    exact absorb_isMap_iff (hparts run run.mem_parts_self) hslots
  | updateKey run returnflag linestatus quantity extendedprice discount tax ih
  | updateKeyValues run returnflag linestatus quantity extendedprice discount tax ih =>
    dsimp only [parts]
    rw [List.forall_mem_cons,List.forall_mem_cons]
    refine (and_congr_left fun hparts => ?_).trans (and_congr_right' ih)
    exact hbytes run _ _ _ _ _ _ (hparts run run.mem_parts_self)
  | merge run other ih ihother =>
    dsimp only [parts]
    rw [List.forall_mem_cons,List.forall_mem_cons,List.forall_mem_append,List.forall_mem_append]
    refine (and_congr_left ?_).trans (and_congr_right' (and_congr ih ihother))
    rintro ⟨hparts,hothers⟩
    have hother := other.table.isMap_iff.mp (hothers other other.mem_parts_self)
    exact absorb_isMap_iff (hparts run run.mem_parts_self) hother.1

/-- A table whose slots are full when the pair comes. -/
def crowded : SlotRun ℤ :=
  (((((((((new.updateKey 49 70 1 1 0 0).updateKey 50 70 1 1 0 0).updateKey 51 70 1 1 0 0).updateKey 52 70 1 1 0 0).updateKey
    53 70 1 1 0 0).updateKey 54 70 1 1 0 0).updateKey 55 70 1 1 0 0).updateKey 56 70 1 1 0 0).update "A" "F" 1 1 0 0)

omit [CommRing R] in
theorem apart_nil {table : PricingSummaryGroupSlots R} (h : table.listed = []) (added : List UInt16) : table.Apart added [] := by
  intro key _
  rw [h]
  exact ⟨List.not_mem_nil,List.not_mem_nil⟩

end SlotRun
end Dodam.Sql
