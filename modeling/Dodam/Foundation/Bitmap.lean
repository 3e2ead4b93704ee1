import Mathlib.Data.Finset.Card
import Mathlib.Data.Nat.Bitwise

/-! # Bitmaps in words

Bits in a list of 64-bit words, marked one at a time, and the rank of a bit: how
many bits are set before it. A rank is the sum of the words before and the lower
bits of its own word.
-/
namespace Dodam.Foundation

/-- `Vec::resize` -/
def resize {α : Type*} (xs : List α) (n : ℕ) (x : α) : List α := xs.take n ++ List.replicate (n - xs.length) x

variable {α : Type*} {n i : ℕ} {words : List ℕ}

@[simp] theorem length_resize (xs : List α) (n : ℕ) (x : α) : (resize xs n x).length = n := by
  simp only [resize,List.length_append,List.length_take,List.length_replicate]
  omega

theorem resize_of_le {xs : List α} (h : xs.length ≤ n) (x : α) :
    resize xs n x = xs ++ List.replicate (n - xs.length) x := by
  rw [resize,List.take_of_length_le h]

theorem getD_resize {xs : List α} (h : xs.length ≤ n) (x : α) (i : ℕ) :
    (resize xs n x).getD i x = xs.getD i x := by
  rw [resize_of_le h]
  rcases lt_or_ge i xs.length with hi | hi
  · rw [List.getD_append _ _ _ _ hi]
  · rw [List.getD_append_right _ _ _ _ hi,List.getD_eq_default xs x hi]
    simp [List.getD]

@[simp] theorem getD_replicate_self (n i : ℕ) (x : α) : (List.replicate n x).getD i x = x := by
  simp [List.getD]

theorem map_range_getD (xs : List α) (x : α) : (List.range xs.length).map (fun i => xs.getD i x) = xs := by
  apply List.ext_getElem (by simp)
  intro i hi hi'
  rw [List.getElem_map,List.getElem_range,List.getD_eq_getElem xs x hi']

def bitAt (words : List ℕ) (i : ℕ) : Bool := (words.getD (i / 64) 0).testBit (i % 64)

/-- `words[i / 64] |= 1 << (i % 64)` -/
def setBit (words : List ℕ) (i : ℕ) : List ℕ := words.modify (i / 64) (· ||| 1 <<< (i % 64))

@[simp] theorem length_setBit (words : List ℕ) (i : ℕ) : (setBit words i).length = words.length := by simp [setBit]

theorem bitAt_setBit (h : i / 64 < words.length) (j : ℕ) :
    bitAt (setBit words i) j = (decide (j = i) || bitAt words j) := by
  simp only [bitAt,setBit,List.getD_eq_getElem?_getD,List.getElem?_modify]
  by_cases hword : i / 64 = j / 64
  · have hbit : i % 64 = j % 64 ↔ j = i := by omega
    rw [← hword,List.getElem?_eq_getElem h]
    simp [Nat.testBit_or,Nat.one_shiftLeft,Nat.testBit_two_pow,hbit,Bool.or_comm]
  · have hne : j ≠ i := fun hji => hword (hji ▸ rfl)
    simp [hword,hne]

@[simp] theorem bitAt_nil (i : ℕ) : bitAt [] i = false := by simp [bitAt]

theorem bitAt_replicate (n i : ℕ) : bitAt (List.replicate n 0) i = false := by
  simp only [bitAt,List.getD_eq_getElem?_getD,List.getElem?_replicate]
  split <;> simp

theorem bitAt_resize (h : words.length ≤ n) (i : ℕ) :
    bitAt (resize words n 0) i = bitAt words i := by
  rw [bitAt,getD_resize h]
  rfl

theorem bitAt_lt (h : bitAt words i = true) : i / 64 < words.length := by
  by_contra hle
  rw [bitAt,List.getD_eq_default _ _ (Nat.not_lt.mp hle),Nat.zero_testBit] at h
  cases h

def setBits (words : List ℕ) (positions : List ℕ) : List ℕ := positions.foldl setBit words

@[simp] theorem length_setBits (words positions : List ℕ) : (setBits words positions).length = words.length := by
  induction positions generalizing words with
  | nil => rfl
  | cons i positions ih => exact (ih _).trans (length_setBit words i)

theorem bitAt_setBits {positions : List ℕ} (h : ∀ i ∈ positions, i / 64 < words.length) (j : ℕ) :
    bitAt (setBits words positions) j = (decide (j ∈ positions) || bitAt words j) := by
  induction positions generalizing words with
  | nil => simp [setBits]
  | cons i positions ih =>
    have hrest : ∀ k ∈ positions, k / 64 < (setBit words i).length := fun k hk => by
      rw [length_setBit]
      exact h k (List.mem_cons_of_mem i hk)
    calc bitAt (setBits words (i :: positions)) j = (decide (j ∈ positions) || bitAt (setBit words i) j) := ih hrest
      _ = (decide (j ∈ i :: positions) || bitAt words j) := by
        rw [bitAt_setBit (h i List.mem_cons_self)]
        simp only [List.mem_cons,Bool.decide_or,← Bool.or_assoc]
        rw [Bool.or_comm (decide (j ∈ positions))]

/-- The words of a part or-ed into the words from `base` on. -/
def orWords (words : List ℕ) (base : ℕ) : List ℕ → List ℕ
  | [] => words
  | word :: part => orWords (words.modify base (· ||| word)) (base + 1) part

@[simp] theorem length_orWords (words : List ℕ) (base : ℕ) (part : List ℕ) : (orWords words base part).length = words.length := by
  induction part generalizing words base with
  | nil => rfl
  | cons word part ih => rw [orWords,ih,List.length_modify]

theorem bitAt_modify_or {w : ℕ} (h : w < words.length) (word j : ℕ) :
    bitAt (words.modify w (· ||| word)) j = (bitAt words j || (decide (j / 64 = w) && word.testBit (j % 64))) := by
  simp only [bitAt,List.getD_eq_getElem?_getD,List.getElem?_modify]
  by_cases hword : w = j / 64
  · rw [← hword,List.getElem?_eq_getElem h]
    simp [Nat.testBit_or]
  · simp [hword,Ne.symm hword]

theorem bitAt_cons (word : ℕ) (part : List ℕ) (i : ℕ) :
    bitAt (word :: part) i = if i < 64 then word.testBit i else bitAt part (i - 64) := by
  unfold bitAt
  split_ifs with h
  · rw [Nat.div_eq_of_lt h,Nat.mod_eq_of_lt h]
    rfl
  · have hdiv : i / 64 = (i - 64) / 64 + 1 := by omega
    have hmod : i % 64 = (i - 64) % 64 := by omega
    rw [hdiv,hmod]
    rfl

theorem bitAt_orWords {base : ℕ} {part : List ℕ} (h : base + part.length ≤ words.length) (j : ℕ) :
    bitAt (orWords words base part) j = (bitAt words j || (decide (64 * base ≤ j) && bitAt part (j - 64 * base))) := by
  induction part generalizing words base with
  | nil => simp [orWords]
  | cons word part ih =>
    rw [List.length_cons] at h
    have hrest : base + 1 + part.length ≤ (words.modify base (· ||| word)).length := by
      rw [List.length_modify]
      omega
    rw [orWords,ih hrest,bitAt_modify_or (by omega),bitAt_cons]
    rcases lt_or_ge j (64 * base) with hlow | hlow
    · have hbase : ¬j / 64 = base := by omega
      have hnext : ¬64 * (base + 1) ≤ j := by omega
      simp [hbase,hnext,Nat.not_le.mpr hlow]
    · rcases lt_or_ge j (64 * (base + 1)) with hhigh | hhigh
      · have hbase : j / 64 = base := by omega
        have hmod : j % 64 = j - 64 * base := by omega
        have hlt : j - 64 * base < 64 := by omega
        simp [hbase,hlow,Nat.not_le.mpr hhigh,hmod,hlt]
      · have hbase : ¬j / 64 = base := by omega
        have hge : ¬j - 64 * base < 64 := by omega
        have hsub : j - 64 * base - 64 = j - 64 * (base + 1) := by omega
        simp [hbase,hlow,hhigh,hge,hsub]

def countOnes (word : ℕ) : ℕ := (List.range 64).countP word.testBit

/-- How many bits are set before a position. -/
def rank (words : List ℕ) (i : ℕ) : ℕ := (List.range i).countP (bitAt words)

section Rank
variable {words : List ℕ} {i j : ℕ}

theorem rank_succ (words : List ℕ) (i : ℕ) : rank words (i + 1) = rank words i + if bitAt words i then 1 else 0 := by
  simp [rank,List.range_succ,List.countP_append,List.countP_singleton]

theorem rank_mono (h : i ≤ j) : rank words i ≤ rank words j := by
  induction h with
  | refl => exact le_rfl
  | step _ ih => exact ih.trans (by rw [rank_succ]; exact Nat.le_add_right ..)

theorem rank_lt (hbit : bitAt words i = true) (h : i < j) : rank words i < rank words j := by
  calc rank words i < rank words (i + 1) := by
        rw [rank_succ,if_pos hbit]
        exact Nat.lt_succ_self _
    _ ≤ rank words j := rank_mono h

theorem rank_injective (hi : bitAt words i = true) (hj : bitAt words j = true) (h : rank words i = rank words j) : i = j := by
  rcases lt_trichotomy i j with hlt | heq | hlt
  · exact absurd h (rank_lt hi hlt).ne
  · exact heq
  · exact absurd h (rank_lt hj hlt).ne'

theorem countOnes_lower (word : ℕ) {b : ℕ} (h : b ≤ 64) : countOnes (word &&& (1 <<< b - 1)) = (List.range b).countP word.testBit := by
  obtain ⟨n,hn⟩ := Nat.exists_eq_add_of_le h
  have hlow : (List.range b).countP (word &&& (1 <<< b - 1)).testBit = (List.range b).countP word.testBit := by
    apply List.countP_congr
    intro i hi
    simp [Nat.one_shiftLeft,List.mem_range.mp hi]
  have hhigh : ((List.range n).map (b + ·)).countP (word &&& (1 <<< b - 1)).testBit = 0 := by
    apply List.countP_eq_zero.mpr
    intro i hi
    obtain ⟨k,_,rfl⟩ := List.mem_map.mp hi
    simp [Nat.one_shiftLeft]
  rw [countOnes,hn,List.range_add,List.countP_append,hlow,hhigh,Nat.add_zero]

theorem rank_word (words : List ℕ) (w : ℕ) {b : ℕ} (h : b ≤ 64) :
    rank words (64 * w + b) = rank words (64 * w) + (List.range b).countP (words.getD w 0).testBit := by
  rw [rank,List.range_add,List.countP_append,List.countP_map]
  congr 1
  apply List.countP_congr
  intro i hi
  have hi := List.mem_range.mp hi
  have hword : (64 * w + i) / 64 = w := by omega
  have hbit : (64 * w + i) % 64 = i := by omega
  simp [bitAt,hword,hbit]

theorem rank_cons (word : ℕ) (words : List ℕ) (i : ℕ) : rank (word :: words) (64 + i) = countOnes word + rank words i := by
  have hfirst : (List.range 64).countP (bitAt (word :: words)) = countOnes word := by
    apply List.countP_congr
    intro k hk
    rw [bitAt_cons,if_pos (List.mem_range.mp hk)]
  have hrest : (List.range i).countP (bitAt (word :: words) ∘ (64 + ·)) = rank words i := by
    apply List.countP_congr
    intro k _
    simp [bitAt_cons]
  rw [rank,List.range_add,List.countP_append,List.countP_map,hfirst,hrest]

end Rank
end Dodam.Foundation
