import Dodam.Foundation.Fold
import Dodam.Storage.DictionaryIds

/-! # The matcher of a selection

A matcher is built from one flag for each dictionary entry, of which there are fewer than two to
the power of 32: the header of a dictionary page counts them with 32 bits.
-/
namespace Dodam.Storage
open Foundation Execution

def flagAt (flags : List Bool) (id : ℕ) : Bool := flags[id]?.getD false

theorem flagAt_concat (flags : List Bool) (flag : Bool) (id : ℕ) :
    flagAt (flags ++ [flag]) id = if id = flags.length then flag else flagAt flags id := by
  rw [flagAt,flagAt,List.getElem?_append]
  split_ifs with hlt heq heq
  · omega
  · rfl
  · rw [heq,Nat.sub_self]
    rfl
  · rw [List.getElem?_eq_none (by simp; omega),List.getElem?_eq_none (by omega)]

theorem flagAt_of_length_le {flags : List Bool} {id : ℕ} (h : flags.length ≤ id) : flagAt flags id = false := by
  rw [flagAt,List.getElem?_eq_none h]
  rfl

namespace DictionaryIdMatcher

theorem inWords_eq (words : List ℕ) (id : ℕ) : inWords words id = (words[id / 64]?.getD 0).testBit (id % 64) := by
  rw [inWords]
  split
  · next word hword => rw [hword,Option.getD_some,Nat.testBit,Nat.and_comm]
  · next hword => rw [hword,Option.getD_none,Nat.zero_testBit]

theorem inWords_modify {words : List ℕ} {n : ℕ} (hn : n / 64 < words.length) (id : ℕ) :
    inWords (words.modify (n / 64) (· ||| 1 <<< (n % 64))) id = (inWords words id || decide (id = n)) := by
  rw [inWords_eq,inWords_eq,List.getElem?_modify]
  by_cases hword : n / 64 = id / 64
  · have hid : id / 64 < words.length := hword ▸ hn
    rw [List.getElem?_eq_getElem hid]
    simp only [hword,if_true,Option.map_eq_map,Option.map_some,Option.getD_some,Nat.testBit_or,Nat.one_shiftLeft,
      Nat.testBit_two_pow]
    congr 1
    rw [decide_eq_decide]
    omega
  · have hne : id ≠ n := fun h => hword (h ▸ rfl)
    simp [hword,hne]

theorem inRanges_concat (ranges : List (ℕ × ℕ)) (start stop id : ℕ) :
    inRanges (ranges ++ [(start,stop)]) id = (inRanges ranges id || (decide (start ≤ id) && decide (id < stop))) := by
  rw [inRanges,inRanges,List.any_append,List.any_cons,List.any_nil,Bool.or_false]

end DictionaryIdMatcher

namespace DictionaryIdMatcherBuilder

def inOpen (b : DictionaryIdMatcherBuilder) (id : ℕ) : Bool :=
  match b.openRange with
  | none => false
  | some start => start ≤ id && id < b.len

structure Saw (capacity : ℕ) (seen : List Bool) (b : DictionaryIdMatcherBuilder) : Prop where
  len : b.len = seen.length
  count : b.selectedCount = seen.count true
  room : b.words.length = (capacity + 63) / 64
  words : ∀ id, DictionaryIdMatcher.inWords b.words id = flagAt seen id
  opened : ∀ start, b.openRange = some start → start < b.len ∧ b.rangesExceeded = false
  ranges : b.rangesExceeded = false → ∀ id, (DictionaryIdMatcher.inRanges b.ranges id || b.inOpen id) = flagAt seen id

variable {capacity : ℕ} {seen : List Bool} {b : DictionaryIdMatcherBuilder}

theorem saw_withCapacity (capacity : ℕ) : Saw capacity [] (withCapacity capacity) where
  len := rfl
  count := rfl
  room := List.length_replicate
  words id := by
    rw [DictionaryIdMatcher.inWords_eq,withCapacity,List.getElem?_replicate,flagAt]
    split_ifs
    · exact Nat.zero_testBit _
    · exact Nat.zero_testBit _
  opened := nofun
  ranges _ id := by simp [DictionaryIdMatcherBuilder.withCapacity,DictionaryIdMatcher.inRanges,inOpen,flagAt]

theorem Saw.closeRange (h : Saw capacity seen b) (hlen : seen.length < 2 ^ 32) :
    Saw capacity seen (b.closeRange (asId b.len)) ∧ (b.closeRange (asId b.len)).openRange = none := by
  have hid : asId b.len = b.len := by rw [asId,h.len,Nat.mod_eq_of_lt hlen]
  rw [hid,DictionaryIdMatcherBuilder.closeRange]
  cases hopen : b.openRange with
  | none => exact ⟨h,hopen⟩
  | some start =>
    obtain ⟨-,hexceeded⟩ := h.opened start hopen
    simp only
    split_ifs
    · refine ⟨⟨h.len,h.count,h.room,h.words,nofun,fun _ id => ?_⟩,rfl⟩
      have hranges := h.ranges hexceeded id
      rw [inOpen,hopen] at hranges
      rw [← hranges,inOpen,DictionaryIdMatcher.inRanges_concat,Bool.or_false]
    · exact ⟨⟨h.len,h.count,h.room,h.words,nofun,nofun⟩,rfl⟩

theorem Saw.push (h : Saw capacity seen b) (flag : Bool) (hlen : seen.length < 2 ^ 32) (hroom : seen.length < capacity) :
    Saw capacity (seen ++ [flag]) (b.push flag) := by
  have hlength : (seen ++ [flag]).length = b.len + 1 := by rw [List.length_append,h.len]; rfl
  cases flag with
  | false =>
    -- the flag leaves every id as it is
    have hflags (id : ℕ) : flagAt (seen ++ [false]) id = flagAt seen id := by
      rw [flagAt_concat]
      split_ifs with heq
      · rw [flagAt_of_length_le heq.ge]
      · rfl
    obtain ⟨hclosed,hnone⟩ := h.closeRange hlen
    have hpush : b.push false = { b.closeRange (asId b.len) with len := b.len + 1 } := by
      simp only [DictionaryIdMatcherBuilder.push,DictionaryIdMatcherBuilder.closeRange,Bool.false_eq_true,if_false]
      split
      · rfl
      · split_ifs
        · rfl
        · rfl
    rw [hpush]
    refine ⟨hlength.symm,?_,hclosed.room,fun id => (hclosed.words id).trans (hflags id).symm,?_,fun hexceeded id => ?_⟩
    · rw [List.count_append]
      exact hclosed.count
    · intro start hstart
      exact absurd (hnone.symm.trans hstart) nofun
    · have hranges := hclosed.ranges hexceeded id
      rw [inOpen,hnone] at hranges
      rw [hflags,← hranges,inOpen]
      simp only [hnone]
  | true =>
    have hflags (id : ℕ) : flagAt (seen ++ [true]) id = (flagAt seen id || decide (id = seen.length)) := by
      rw [flagAt_concat]
      split_ifs with heq
      · simp [heq]
      · simp [heq]
    have hword : b.len / 64 < b.words.length := by
      rw [h.room,h.len]
      omega
    have hid : asId b.len = b.len := by rw [asId,h.len,Nat.mod_eq_of_lt hlen]
    simp only [DictionaryIdMatcherBuilder.push,if_true]
    refine ⟨hlength.symm,?_,?_,fun id => ?_,?_,fun hexceeded id => ?_⟩
    · rw [List.count_append,h.count]
      rfl
    · rw [List.length_modify]
      exact h.room
    · rw [DictionaryIdMatcher.inWords_modify hword,h.words,hflags,h.len]
    · intro start hstart
      split_ifs at hstart with hfirst
      · cases hstart
        simp only [Bool.and_eq_true,Bool.not_eq_true'] at hfirst
        exact ⟨hid.le.trans_lt (Nat.lt_succ_self b.len),hfirst.1⟩
      · obtain ⟨hlt,hexceeded⟩ := h.opened start hstart
        exact ⟨by simp only; omega,hexceeded⟩
    · have hranges := h.ranges hexceeded id
      rw [hflags,← hranges,inOpen,inOpen,Bool.or_assoc]
      congr 1
      simp only at hexceeded
      rw [hexceeded,hid,h.len]
      cases hopen : b.openRange with
      | none =>
        simp only [Bool.not_false,Bool.true_and,Option.isNone_none,if_true,Bool.false_or]
        rw [Bool.eq_iff_iff]
        simp only [Bool.and_eq_true,decide_eq_true_eq]
        omega
      | some start =>
        obtain ⟨hlt,-⟩ := h.opened start hopen
        rw [h.len] at hlt
        simp only [Option.isNone_some,Bool.and_false,Bool.false_eq_true,if_false]
        rw [Bool.eq_iff_iff]
        simp only [Bool.and_eq_true,Bool.or_eq_true,decide_eq_true_eq]
        omega

end DictionaryIdMatcherBuilder

open DictionaryIdMatcherBuilder

/-- Every form of the matcher contains the ids whose flag is set. -/
theorem DictionaryIdMatcher.contains_fromSelected {selected : List Bool} (hlen : selected.length < 2 ^ 32) (id : ℕ) :
    (fromSelected selected).contains id = flagAt selected id := by
  have hsaw : DictionaryIdMatcherBuilder.Saw selected.length selected
      (selected.foldl push (.withCapacity selected.length)) := by
    refine foldl_inv (DictionaryIdMatcherBuilder.Saw selected.length) (saw_withCapacity _) ?_
    intro seen flag rest b hsplit h
    have hlength := congrArg List.length hsplit
    rw [List.length_append,List.length_cons] at hlength
    exact h.push flag (by omega) (by omega)
  obtain ⟨hclosed,hnone⟩ := hsaw.closeRange hlen
  rw [fromSelected,finish]
  generalize (selected.foldl push (.withCapacity selected.length)).closeRange
    (asId (selected.foldl push (.withCapacity selected.length)).len) = b at hclosed hnone
  split_ifs with hzero hall hexceeded
  · -- no flag is set
    rw [contains,flagAt]
    cases hflag : selected[id]? with
    | none => rfl
    | some flag =>
      cases flag with
      | false => rfl
      | true =>
        have hmem := List.mem_of_getElem? hflag
        have hcount := List.count_pos_iff.mpr hmem
        have := hclosed.count
        omega
  · -- every flag is set
    rw [contains,flagAt,hclosed.len]
    have hset := List.count_eq_length.mp ((hclosed.count.symm.trans hall).trans hclosed.len)
    cases hflag : selected[id]? with
    | none => exact decide_eq_false (Nat.not_lt.mpr (List.getElem?_eq_none_iff.mp hflag))
    | some flag =>
      rw [← hset flag (List.mem_of_getElem? hflag)]
      exact decide_eq_true (List.getElem?_eq_some_iff.mp hflag).1
  · have hranges := hclosed.ranges (by simpa using hexceeded) id
    rw [inOpen,hnone,Bool.or_false] at hranges
    rw [contains,hranges,hclosed.len]
    by_cases hid : id < selected.length
    · simp [hid]
    · rw [flagAt_of_length_le (Nat.le_of_not_lt hid),Bool.and_false]
  · exact hclosed.words id

/-- A block gives an error exactly for an id behind the dictionary, and otherwise the lanes of the ids
whose flag is set. -/
theorem DictionaryIdMatcher.fromSelected_masks {selected : List Bool} (hlen : selected.length < 2 ^ 32) {ids : List ℕ}
    {baseLane : ℕ} (hlanes : baseLane + ids.length ≤ 64) (dictionaryLen : ℕ) :
    (∀ id, (fromSelected selected).contains id = flagAt selected id) ∧
      ((∃ id ∈ ids, dictionaryLen ≤ id) →
        (fromSelected selected).maskIds ids baseLane dictionaryLen = invalidDictionaryIdError) ∧
      ((∀ id ∈ ids, id < dictionaryLen) → ∃ mask < 2 ^ 64,
        (fromSelected selected).maskIds ids baseLane dictionaryLen = .ok mask ∧
          ∀ bit, mask.testBit bit = true ↔ ∃ k id, ids[k]? = some id ∧ flagAt selected id = true ∧ bit = baseLane + k) := by
  refine ⟨contains_fromSelected hlen,fun hbehind => ?_,fun hids => ?_⟩
  · rw [maskIds_loop]
    exact maskLoop_error _ _ _ hbehind
  have hbits (bit : ℕ) : (flagsMask (ids.map (fromSelected selected).contains) baseLane).testBit bit = true ↔
      ∃ k id, ids[k]? = some id ∧ flagAt selected id = true ∧ bit = baseLane + k := by
    rw [testBit_flagsMask,Bool.and_eq_true,decide_eq_true_iff,List.getElem?_map]
    constructor
    · rintro ⟨hle,hflag⟩
      cases hid : ids[bit - baseLane]? with
      | none =>
        rw [hid] at hflag
        cases hflag
      | some id =>
        rw [hid,Option.map_some,Option.getD_some,contains_fromSelected hlen] at hflag
        exact ⟨bit - baseLane,id,hid,hflag,by omega⟩
    · rintro ⟨k,id,hid,hflag,rfl⟩
      rw [Nat.add_sub_cancel_left,hid,Option.map_some,Option.getD_some,contains_fromSelected hlen]
      exact ⟨Nat.le_add_right ..,hflag⟩
  refine ⟨flagsMask (ids.map (fromSelected selected).contains) baseLane,?_,?_,hbits⟩
  · refine Nat.lt_pow_two_of_testBit _ fun bit hbit => Bool.eq_false_iff.mpr fun hset => ?_
    obtain ⟨k,id,hid,-,rfl⟩ := (hbits bit).mp hset
    have := (List.getElem?_eq_some_iff.mp hid).1
    omega
  · rw [maskIds_loop,maskLoop_eq _ _ _ hids,Nat.zero_or]

theorem DictionaryIdMatcher.fromSelected_masks_block : ∃ mask < 2 ^ 64,
    (fromSelected [true,false,true]).maskIds [2,1,0] 5 3 = .ok mask ∧ ∀ bit, mask.testBit bit = true ↔
      ∃ k id, [2,1,0][k]? = some id ∧ flagAt [true,false,true] id = true ∧ bit = 5 + k :=
  (fromSelected_masks (by decide) (by decide) 3).2.2 (by decide)

namespace DictionaryIdMatcherBuilder

theorem foldl_push_true {b : DictionaryIdMatcherBuilder} {start : ℕ} (hopen : b.openRange = some start)
    (hexceeded : b.rangesExceeded = false) (n : ℕ) :
    ((List.replicate n true).foldl push b).len = b.len + n ∧
      ((List.replicate n true).foldl push b).selectedCount = b.selectedCount + n ∧
      ((List.replicate n true).foldl push b).ranges = b.ranges ∧
      ((List.replicate n true).foldl push b).openRange = some start ∧
      ((List.replicate n true).foldl push b).rangesExceeded = false := by
  induction n generalizing b with
  | zero => exact ⟨rfl,rfl,rfl,hopen,hexceeded⟩
  | succ n ih =>
    have hnext : (b.push true).openRange = some start := by simp [push,hopen]
    obtain ⟨hlen,hcount,hrest⟩ := @ih (b.push true) hnext hexceeded
    rw [List.replicate_succ,List.foldl_cons,hlen,hcount]
    exact ⟨Nat.add_right_comm ..,Nat.add_right_comm ..,hrest⟩

/-- A range that is open at the end of 2^32 flags ends before it starts. -/
theorem finish_wraps {b : DictionaryIdMatcherBuilder} {start : ℕ} (hopen : b.openRange = some start)
    (hranges : b.ranges = []) (hexceeded : b.rangesExceeded = false) (hlen : b.len = 2 ^ 32) (hsome : b.selectedCount ≠ 0)
    (hall : b.selectedCount ≠ 2 ^ 32) : b.finish = .ranges (2 ^ 32) [(start,0)] := by
  have hclose : b.closeRange (asId b.len) = { b with openRange := none, ranges := [(start,0)] } := by
    rw [closeRange,hopen,hranges,hlen]
    rfl
  rw [finish,hclose]
  simp only [if_neg hsome,if_neg hall,hexceeded,hlen,Bool.not_false,if_true]

end DictionaryIdMatcherBuilder

/-- The end of the last range is numbered with 32 bits. -/
theorem DictionaryIdMatcher.fromSelected_wraps : ∃ selected : List Bool, ∃ id < selected.length,
    (fromSelected selected).contains id ≠ flagAt selected id := by
  obtain ⟨n,hn⟩ : ∃ n, n + 2 = 2 ^ 32 := ⟨2 ^ 32 - 2,by norm_num⟩
  refine ⟨false :: true :: List.replicate n true,1,?_,?_⟩
  · rw [List.length_cons,List.length_cons]
    omega
  obtain ⟨hlen,hcount,hranges,hopen,hexceeded⟩ := @DictionaryIdMatcherBuilder.foldl_push_true
    (((DictionaryIdMatcherBuilder.withCapacity ((List.replicate n true).length + 1 + 1)).push false).push true) 1 rfl rfl n
  have hlen' : 2 + n = 2 ^ 32 := by omega
  have hfinish := DictionaryIdMatcherBuilder.finish_wraps hopen hranges hexceeded (hlen.trans hlen')
    (by rw [hcount]; exact Nat.ne_of_gt (Nat.add_pos_left Nat.one_pos n))
    (by rw [hcount,← hlen']; exact Nat.ne_of_lt (Nat.add_lt_add_right Nat.one_lt_two n))
  have hmatcher : fromSelected (false :: true :: List.replicate n true) = .ranges (2 ^ 32) [(1,0)] := hfinish
  rw [hmatcher]
  exact Bool.false_ne_true

end Dodam.Storage
