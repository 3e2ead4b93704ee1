import Dodam.Foundation.Bitmap
import Dodam.Foundation.Fold
import Dodam.Foundation.KeyedTable

/-! # Rank maps of 64-bit keys

A rank map keeps a bit for each key and its value at the rank of the bit. In each case a key has
the value of its last pair.
-/
namespace Dodam.Dense
open Foundation

section Model
variable {τ : Type*}

structure DenseI64RankMap (τ : Type*) where
  words : List ℕ
  rankPrefixes : List ℕ
  values : List τ
  minKey : ℤ
  maxKey : ℤ

structure DenseI64RankChunkBitmap where
  words : List ℕ
  baseWord : ℕ
  minKey : ℤ
  maxKey : ℤ
  pairCount : ℕ

/-- `usize::try_from` -/
def keyIndex (key : ℤ) : Option ℕ := if 0 ≤ key then some key.toNat else none

/-- A result that fits a `usize`. -/
def checked (n : ℕ) : Option ℕ := if n < 2 ^ 64 then some n else none

def checkedSum (ns : List ℕ) : Option ℕ := ns.foldlM (fun total n => checked (total + n)) 0

/-- The least key; `i64::MAX` is what the search starts with. -/
def minKeyOf (keys : List ℤ) : ℤ := keys.min?.getD (2 ^ 63 - 1)

/-- The greatest key; `i64::MIN` is what the search starts with. -/
def maxKeyOf (keys : List ℤ) : ℤ := keys.max?.getD (-2 ^ 63)

def wordCountFor (maxKey : ℤ) : Option ℕ :=
  (keyIndex maxKey).bind fun maxIndex => (checked (maxIndex + 1)).map fun n => (n + 63) / 64

/-- The bytes of the bitmap, the rank prefixes and the values. -/
def estimatedBytes (valueBytes wordCount pairCount : ℕ) : Option ℕ :=
  (checked (wordCount * 8)).bind fun bitmapBytes =>
    (checked (wordCount * 4)).bind fun rankBytes =>
      (checked (pairCount * valueBytes)).bind fun valueBytes =>
        (checked (bitmapBytes + rankBytes)).bind fun n => checked (n + valueBytes)

/-- The number of bits before each word, each of which fits a `u32`, and the number of all bits. -/
def buildRankPrefixes : List ℕ → ℕ → Option (List ℕ × ℕ)
  | [], count => some ([],count)
  | word :: words, count =>
    if count < 2 ^ 32 then
      (checked (count + countOnes word)).bind fun next => (buildRankPrefixes words next).map fun r => (count :: r.1,r.2)
    else none

/-- The rank of an index from the prefix of its word and the lower bits. -/
def rankAt (words prefixes : List ℕ) (index : ℕ) : ℕ :=
  prefixes.getD (index / 64) 0 + countOnes (words.getD (index / 64) 0 &&& (1 <<< (index % 64) - 1))

/-- `dense_i64_rank_from_parts` -/
def denseI64RankFromParts (words prefixes : List ℕ) (key : ℤ) : Option ℕ :=
  (keyIndex key).bind fun index =>
    words[index / 64]?.bind fun word =>
      if word.testBit (index % 64) then
        prefixes[index / 64]?.map fun count => count + countOnes (word &&& (1 <<< (index % 64) - 1))
      else none

variable [Inhabited τ]

def DenseI64RankMap.get (m : DenseI64RankMap τ) (key : ℤ) : Option τ :=
  (denseI64RankFromParts m.words m.rankPrefixes key).bind fun rank => m.values[rank]?

def DenseI64RankMap.fromPairs (valueBytes maxBytes : ℕ) (pairs : List (ℤ × τ)) : Option (DenseI64RankMap τ) :=
  (pairs.mapM fun p => keyIndex p.1).bind fun indices =>
    (checked pairs.length).bind fun pairCount =>
      if pairCount = 0 then none
      else
        (wordCountFor (maxKeyOf (pairs.map Prod.fst))).bind fun wordCount =>
          (estimatedBytes valueBytes wordCount pairCount).bind fun estimated =>
            if maxBytes < estimated then none
            else
              let words := setBits (List.replicate wordCount 0) indices
              (buildRankPrefixes words 0).bind fun (prefixes,valueCount) =>
                if valueCount < 2 ^ 32 then
                  some ⟨words,prefixes,
                    (indices.zip (pairs.map Prod.snd)).foldl (fun values p => values.set (rankAt words prefixes p.1) p.2)
                      (List.replicate valueCount default),
                    minKeyOf (pairs.map Prod.fst),maxKeyOf (pairs.map Prod.fst)⟩
                else none

/-- `words[index / 64 - base] |= 1 << (index % 64)` for each index. -/
def setBitsFrom (base : ℕ) (words indices : List ℕ) : List ℕ :=
  indices.foldl (fun words index => words.modify (index / 64 - base) (· ||| 1 <<< (index % 64))) words

omit [Inhabited τ] in
/-- `dense_i64_rank_chunk_bitmap` -/
def denseI64RankChunkBitmap (maxBytes : ℕ) (pairs : List (ℤ × τ)) : Option DenseI64RankChunkBitmap :=
  if pairs.isEmpty then some ⟨[],0,0,-1,0⟩
  else
    (pairs.mapM fun p => keyIndex p.1).bind fun indices =>
      (keyIndex (minKeyOf (pairs.map Prod.fst))).bind fun minIndex =>
        (keyIndex (maxKeyOf (pairs.map Prod.fst))).bind fun maxIndex =>
          (checked (maxIndex / 64 - minIndex / 64 + 1)).bind fun wordCount =>
            (checked (wordCount * 8)).bind fun bytes =>
              if maxBytes < bytes then none
              else some ⟨setBitsFrom (minIndex / 64) (List.replicate wordCount 0) indices,minIndex / 64,
                minKeyOf (pairs.map Prod.fst),maxKeyOf (pairs.map Prod.fst),pairs.length⟩

/-- The chunks that hold keys follow each other. -/
def orderedNonOverlapping : Option ℤ → List DenseI64RankChunkBitmap → Bool
  | _, [] => true
  | previousMax, chunk :: chunks =>
    if chunk.pairCount = 0 then orderedNonOverlapping previousMax chunks
    else if previousMax.any (chunk.minKey ≤ ·) then false
    else orderedNonOverlapping (some chunk.maxKey) chunks

/-- The values of a chunk in the order of their ranks, when each has a place in it. -/
def chunkValues (words prefixes : List ℕ) (pairs : List (ℤ × τ)) : Option (List τ) :=
  if pairs.isEmpty then some []
  else
    (denseI64RankFromParts words prefixes (minKeyOf (pairs.map Prod.fst))).bind fun baseRank =>
      pairs.foldlM (fun values p =>
        (denseI64RankFromParts words prefixes p.1).bind fun rank =>
          if baseRank ≤ rank ∧ rank - baseRank < values.length then some (values.set (rank - baseRank) p.2) else none)
        (List.replicate pairs.length default)

def DenseI64RankMap.fromChunksParallel (valueBytes maxBytes : ℕ) (chunks : List (List (ℤ × τ))) :
    Option (DenseI64RankMap τ) :=
  (chunks.mapM (denseI64RankChunkBitmap maxBytes)).bind fun bitmaps =>
    let filled := bitmaps.filter fun chunk => chunk.pairCount ≠ 0
    (checkedSum (filled.map (·.pairCount))).bind fun pairCount =>
      (checkedSum (filled.map (·.words.length))).bind fun localWordCount =>
        if pairCount = 0 then none
        else
          (wordCountFor (maxKeyOf (filled.map (·.maxKey)))).bind fun wordCount =>
            (estimatedBytes valueBytes wordCount pairCount).bind fun estimated =>
              (checked (localWordCount * 8)).bind fun localBytes =>
                if maxBytes < estimated ∨ maxBytes < localBytes then none
                else
                  let words := bitmaps.foldl (fun words chunk => orWords words chunk.baseWord chunk.words)
                    (List.replicate wordCount 0)
                  (buildRankPrefixes words 0).bind fun (prefixes,valueCount) =>
                    if valueCount < 2 ^ 32 then
                      (if orderedNonOverlapping none bitmaps ∧ valueCount = pairCount then
                        (chunks.mapM (chunkValues words prefixes)).bind fun parts =>
                          if parts.flatten.length = valueCount then some parts.flatten else none
                      else
                        chunks.flatten.foldlM (fun values p =>
                          (denseI64RankFromParts words prefixes p.1).map fun rank => values.set rank p.2)
                          (List.replicate valueCount default)).map fun values =>
                            ⟨words,prefixes,values,minKeyOf (filled.map (·.minKey)),maxKeyOf (filled.map (·.maxKey))⟩
                    else none

end Model

open DenseI64RankMap

section Ranks
variable {τ : Type*} {words prefixes : List ℕ} {start total : ℕ}

theorem checked_eq_some {n m : ℕ} (h : checked n = some m) : m = n := by
  unfold checked at h
  split_ifs at h
  exact (Option.some.inj h).symm

theorem keyIndex_eq_some {key : ℤ} {index : ℕ} : keyIndex key = some index ↔ key = index := by
  unfold keyIndex
  split_ifs with h
  · rw [Option.some.injEq]
    omega
  · simp only [false_iff]
    omega

theorem buildRankPrefixes_eq (h : buildRankPrefixes words start = some (prefixes,total)) :
    prefixes = (List.range words.length).map (fun w => start + rank words (64 * w)) ∧
      total = start + rank words (64 * words.length) := by
  induction words generalizing start prefixes with
  | nil =>
    cases h
    exact ⟨rfl,rfl⟩
  | cons word words ih =>
    unfold buildRankPrefixes at h
    split_ifs at h
    obtain ⟨next,hnext,hrest⟩ := Option.bind_eq_some_iff.mp h
    obtain ⟨⟨rest,total'⟩,hbuild,heq⟩ := Option.map_eq_some_iff.mp hrest
    cases heq
    obtain ⟨hprefixes,htotal⟩ := ih hbuild
    have hrank (w : ℕ) : rank (word :: words) (64 * (w + 1)) = countOnes word + rank words (64 * w) := by
      rw [Nat.mul_succ,Nat.add_comm,rank_cons]
    rw [checked_eq_some hnext] at hprefixes htotal
    constructor
    · rw [hprefixes,List.length_cons,List.range_succ_eq_map,List.map_cons,List.map_map]
      congr 1
      apply List.map_congr_left
      intro w _
      rw [Function.comp_apply,Nat.succ_eq_add_one,hrank,Nat.add_assoc]
    · rw [htotal,List.length_cons,hrank,Nat.add_assoc]

variable (h : buildRankPrefixes words 0 = some (prefixes,total))
include h

theorem total_eq : total = rank words (64 * words.length) := by
  rw [(buildRankPrefixes_eq h).2,Nat.zero_add]

theorem prefixes_getElem? {w : ℕ} (hw : w < words.length) : prefixes[w]? = some (rank words (64 * w)) := by
  simp [(buildRankPrefixes_eq h).1,hw]

theorem rankAt_eq {index : ℕ} (hindex : index / 64 < words.length) : rankAt words prefixes index = rank words index := by
  have hsplit : index = 64 * (index / 64) + index % 64 := (Nat.div_add_mod index 64).symm
  have hlt : index % 64 ≤ 64 := (Nat.mod_lt index (by decide)).le
  rw [rankAt,List.getD_eq_getElem?_getD,prefixes_getElem? h hindex,Option.getD_some,countOnes_lower _ hlt,← rank_word words _ hlt,
    ← hsplit]

theorem denseI64RankFromParts_eq (key : ℤ) :
    denseI64RankFromParts words prefixes key =
      if 0 ≤ key ∧ bitAt words key.toNat = true then some (rank words key.toNat) else none := by
  unfold denseI64RankFromParts keyIndex
  by_cases hkey : 0 ≤ key
  · rw [if_pos hkey,Option.bind_some]
    cases hword : words[key.toNat / 64]? with
    | none =>
      have hle : words.length ≤ key.toNat / 64 := List.getElem?_eq_none_iff.mp hword
      have hbit : bitAt words key.toNat = false := by
        rw [bitAt,List.getD_eq_default _ _ hle,Nat.zero_testBit]
      simp [hbit]
    | some word =>
      have hlt : key.toNat / 64 < words.length := (List.getElem?_eq_some_iff.mp hword).1
      have hget : words.getD (key.toNat / 64) 0 = word := by rw [List.getD_eq_getElem?_getD,hword,Option.getD_some]
      have hrank := rankAt_eq h hlt
      rw [rankAt,List.getD_eq_getElem?_getD,prefixes_getElem? h hlt,Option.getD_some,hget] at hrank
      simp only [Option.bind_some,prefixes_getElem? h hlt,Option.map_some,hrank,bitAt,hget,hkey,true_and]
  · rw [if_neg hkey,if_neg fun h => hkey h.1]
    rfl

theorem rank_lt_total {i : ℕ} (hbit : bitAt words i = true) : rank words i < total := by
  rw [total_eq h]
  apply rank_lt hbit
  have := bitAt_lt hbit
  omega

end Ranks

section Stores
variable {τ : Type*}

theorem foldl_set_getElem? (place : ℤ → ℕ) (key : ℤ) (pairs : List (ℤ × τ)) (values : List τ)
    (hplace : ∀ p ∈ pairs, place p.1 = place key → p.1 = key) (hlt : place key < values.length) :
    (pairs.foldl (fun values p => values.set (place p.1) p.2) values)[place key]? =
      (Map.lastFor pairs key).or values[place key]? := by
  induction pairs generalizing values with
  | nil => rfl
  | cons p pairs ih =>
    have hrest : ∀ q ∈ pairs, place q.1 = place key → q.1 = key := fun q hq => hplace q (List.mem_cons_of_mem p hq)
    rw [List.foldl_cons,ih _ hrest (by rwa [List.length_set]),Map.lastFor,Option.or_assoc,List.getElem?_set]
    congr 1
    by_cases hkey : p.1 = key
    · simp [hkey,hlt]
    · have hne : ¬place p.1 = place key := fun heq => hkey (hplace p List.mem_cons_self heq)
      simp [hkey,hne]

theorem length_foldl_set (place : ℤ → ℕ) (pairs : List (ℤ × τ)) (values : List τ) :
    (pairs.foldl (fun values p => values.set (place p.1) p.2) values).length = values.length := by
  induction pairs generalizing values with
  | nil => rfl
  | cons p pairs ih => rw [List.foldl_cons,ih,List.length_set]

end Stores

section Keys
variable {τ : Type*} {pairs : List (ℤ × τ)} {indices : List ℕ}

theorem mapM_keyIndex (h : pairs.mapM (fun p => keyIndex p.1) = some indices) :
    (∀ p ∈ pairs, 0 ≤ p.1) ∧ indices = pairs.map fun p => p.1.toNat := by
  rw [mapM_eq_some_iff] at h
  induction h with
  | nil => exact ⟨by simp,rfl⟩
  | @cons p index pairs indices hindex _ ih =>
    have hkey : p.1 = index := keyIndex_eq_some.mp hindex
    refine ⟨fun q hq => ?_,?_⟩
    · rcases List.mem_cons.mp hq with rfl | hq
      · exact hkey ▸ Int.natCast_nonneg index
      · exact ih.1 q hq
    · rw [List.map_cons,← ih.2,hkey,Int.toNat_natCast]

theorem max?_maxKeyOf {keys : List ℤ} (h : keys ≠ []) : keys.max? = some (maxKeyOf keys) := by
  obtain ⟨m,hm⟩ := Option.isSome_iff_exists.mp (List.isSome_max?_of_ne_nil h)
  rw [maxKeyOf,hm]
  rfl

theorem le_maxKeyOf {keys : List ℤ} {key : ℤ} (h : key ∈ keys) : key ≤ maxKeyOf keys :=
  (List.max?_eq_some_iff.mp (max?_maxKeyOf (List.ne_nil_of_mem h))).2 key h

theorem minKeyOf_spec {keys : List ℤ} (h : keys ≠ []) : minKeyOf keys ∈ keys ∧ ∀ key ∈ keys, minKeyOf keys ≤ key := by
  apply List.min?_eq_some_iff.mp
  obtain ⟨m,hm⟩ := Option.isSome_iff_exists.mp (List.isSome_min?_of_ne_nil h)
  rw [minKeyOf,hm]
  rfl

theorem maxKeyOf_mem {keys : List ℤ} (h : keys ≠ []) : maxKeyOf keys ∈ keys := (List.max?_eq_some_iff.mp (max?_maxKeyOf h)).1

theorem div_lt_wordCount {maxKey key : ℤ} {wordCount : ℕ} (hcount : wordCountFor maxKey = some wordCount) (hkey : key ≤ maxKey) :
    key.toNat / 64 < wordCount := by
  obtain ⟨maxIndex,hmax,hmap⟩ := Option.bind_eq_some_iff.mp hcount
  obtain ⟨n,hn,rfl⟩ := Option.map_eq_some_iff.mp hmap
  rw [keyIndex_eq_some.mp hmax] at hkey
  rw [checked_eq_some hn]
  omega

end Keys

section Answers
variable {τ : Type*} [Inhabited τ] {words prefixes : List ℕ} {total : ℕ} {pairs : List (ℤ × τ)} {minKey maxKey : ℤ}

omit [Inhabited τ] in
theorem get_of_stored (h : buildRankPrefixes words 0 = some (prefixes,total))
    (hbits : ∀ i, bitAt words i = decide (i ∈ pairs.map fun p => p.1.toNat)) (hpos : ∀ p ∈ pairs, 0 ≤ p.1) {values : List τ}
    (hvalues : ∀ key ∈ pairs.map Prod.fst, values[rank words key.toNat]? = Map.lastFor pairs key) (key : ℤ) :
    (DenseI64RankMap.mk words prefixes values minKey maxKey).get key = Map.lastFor pairs key := by
  rw [DenseI64RankMap.get,denseI64RankFromParts_eq h]
  by_cases hkey : key ∈ pairs.map Prod.fst
  · obtain ⟨p,hp,rfl⟩ := List.mem_map.mp hkey
    have hbit : bitAt words p.1.toNat = true := by
      rw [hbits,decide_eq_true_eq]
      exact List.mem_map.mpr ⟨p,hp,rfl⟩
    rw [if_pos ⟨hpos p hp,hbit⟩]
    exact hvalues p.1 hkey
  · have hout : ¬(0 ≤ key ∧ bitAt words key.toNat = true) := by
      rintro ⟨hnonneg,hbit⟩
      rw [hbits,decide_eq_true_eq] at hbit
      obtain ⟨p,hp,heq⟩ := List.mem_map.mp hbit
      have hpos := hpos p hp
      exact hkey (List.mem_map.mpr ⟨p,hp,by omega⟩)
    rw [if_neg hout,Map.lastFor_eq_none.mpr hkey]
    rfl

theorem stored_getElem? (h : buildRankPrefixes words 0 = some (prefixes,total))
    (hbits : ∀ i, bitAt words i = decide (i ∈ pairs.map fun p => p.1.toNat)) (hpos : ∀ p ∈ pairs, 0 ≤ p.1) {key : ℤ}
    (hkey : key ∈ pairs.map Prod.fst) :
    (pairs.foldl (fun values p => values.set (rank words p.1.toNat) p.2) (List.replicate total default))[rank words key.toNat]? =
      Map.lastFor pairs key := by
  have hbit (p : ℤ × τ) (hp : p ∈ pairs) : bitAt words p.1.toNat = true := by
    rw [hbits,decide_eq_true_eq]
    exact List.mem_map.mpr ⟨p,hp,rfl⟩
  obtain ⟨q,hq,rfl⟩ := List.mem_map.mp hkey
  have hplace : ∀ p ∈ pairs, rank words p.1.toNat = rank words q.1.toNat → p.1 = q.1 := by
    intro p hp heq
    have hindex := rank_injective (hbit p hp) (hbit q hq) heq
    have hp := hpos p hp
    have hq := hpos q hq
    omega
  have hlt : rank words q.1.toNat < (List.replicate total (default : τ)).length := by
    rw [List.length_replicate]
    exact rank_lt_total h (hbit q hq)
  rw [foldl_set_getElem? (fun key => rank words key.toNat) q.1 pairs _ hplace hlt]
  obtain ⟨value,hvalue⟩ := Option.ne_none_iff_exists'.mp fun hnone => Map.lastFor_eq_none.mp hnone hkey
  rw [hvalue]
  rfl

theorem fromPairs_get {valueBytes maxBytes : ℕ} {m : DenseI64RankMap τ}
    (hbuild : fromPairs valueBytes maxBytes pairs = some m) (key : ℤ) : m.get key = Map.lastFor pairs key := by
  obtain ⟨indices,hindices,hbuild⟩ := Option.bind_eq_some_iff.mp hbuild
  obtain ⟨pairCount,_,hbuild⟩ := Option.bind_eq_some_iff.mp hbuild
  split_ifs at hbuild
  obtain ⟨wordCount,hcount,hbuild⟩ := Option.bind_eq_some_iff.mp hbuild
  obtain ⟨_,_,hbuild⟩ := Option.bind_eq_some_iff.mp hbuild
  split_ifs at hbuild
  obtain ⟨⟨prefixes,total⟩,hprefixes,hbuild⟩ := Option.bind_eq_some_iff.mp hbuild
  dsimp only at hbuild
  split_ifs at hbuild
  cases hbuild
  obtain ⟨hpos,rfl⟩ := mapM_keyIndex hindices
  have hwords : ∀ i ∈ pairs.map (fun p => p.1.toNat), i / 64 < (List.replicate wordCount 0).length := by
    intro i hi
    obtain ⟨p,hp,rfl⟩ := List.mem_map.mp hi
    rw [List.length_replicate]
    exact div_lt_wordCount hcount (le_maxKeyOf (List.mem_map_of_mem hp))
  have hbits (i : ℕ) : bitAt (setBits (List.replicate wordCount 0) (pairs.map fun p => p.1.toNat)) i =
      decide (i ∈ pairs.map fun p => p.1.toNat) := by
    rw [bitAt_setBits hwords,bitAt_replicate,Bool.or_false]
  apply get_of_stored hprefixes hbits hpos
  intro key hkey
  have hstored := stored_getElem? hprefixes hbits hpos hkey
  rw [← hstored,List.zip_map',List.foldl_map]
  congr 1
  apply List.foldl_ext
  intro values p hp
  rw [rankAt_eq hprefixes]
  rw [length_setBits]
  exact hwords _ (List.mem_map.mpr ⟨p,hp,rfl⟩)

end Answers

section Chunks
variable {τ : Type*} {maxBytes : ℕ} {pairs : List (ℤ × τ)} {c : DenseI64RankChunkBitmap}

structure BitmapOf (c : DenseI64RankChunkBitmap) (pairs : List (ℤ × τ)) : Prop where
  pos : ∀ p ∈ pairs, 0 ≤ p.1
  count : c.pairCount = pairs.length
  bits : ∀ j, (decide (64 * c.baseWord ≤ j) && bitAt c.words (j - 64 * c.baseWord)) = decide (j ∈ pairs.map fun p => p.1.toNat)
  minKey : pairs ≠ [] → c.minKey = minKeyOf (pairs.map Prod.fst)
  maxKey : pairs ≠ [] → c.maxKey = maxKeyOf (pairs.map Prod.fst)
  fits : c.words = [] ∧ c.baseWord = 0 ∨ pairs ≠ [] ∧ c.baseWord + c.words.length ≤ c.maxKey.toNat / 64 + 1

theorem setBitsFrom_eq {base : ℕ} {words indices : List ℕ} (h : ∀ i ∈ indices, base ≤ i / 64) :
    setBitsFrom base words indices = setBits words (indices.map (· - 64 * base)) := by
  rw [setBits,List.foldl_map,setBitsFrom]
  apply List.foldl_ext
  intro words i hi
  have hbase := h i hi
  have hdiv : (i - 64 * base) / 64 = i / 64 - base := by omega
  have hmod : (i - 64 * base) % 64 = i % 64 := by omega
  rw [setBit,hdiv,hmod]

theorem bitmapOf_chunk (h : denseI64RankChunkBitmap maxBytes pairs = some c) : BitmapOf c pairs := by
  unfold denseI64RankChunkBitmap at h
  split_ifs at h with hempty
  · cases h
    rw [List.isEmpty_iff.mp hempty]
    exact ⟨by simp,rfl,fun j => by simp,fun hne => absurd rfl hne,fun hne => absurd rfl hne,.inl ⟨rfl,rfl⟩⟩
  · have hne : pairs ≠ [] := fun hnil => hempty (hnil ▸ rfl)
    have hkeys : pairs.map Prod.fst ≠ [] := fun hnil => hne (List.map_eq_nil_iff.mp hnil)
    obtain ⟨indices,hindices,h⟩ := Option.bind_eq_some_iff.mp h
    obtain ⟨minIndex,hmin,h⟩ := Option.bind_eq_some_iff.mp h
    obtain ⟨maxIndex,hmax,h⟩ := Option.bind_eq_some_iff.mp h
    obtain ⟨wordCount,hcount,h⟩ := Option.bind_eq_some_iff.mp h
    obtain ⟨_,_,h⟩ := Option.bind_eq_some_iff.mp h
    split_ifs at h
    cases h
    obtain ⟨hpos,rfl⟩ := mapM_keyIndex hindices
    have hminKey := keyIndex_eq_some.mp hmin
    have hmaxKey := keyIndex_eq_some.mp hmax
    have hcount := checked_eq_some hcount
    have hbounds : ∀ i ∈ pairs.map (fun p => p.1.toNat), minIndex ≤ i ∧ i ≤ maxIndex := by
      intro i hi
      obtain ⟨p,hp,rfl⟩ := List.mem_map.mp hi
      have hlow := (minKeyOf_spec hkeys).2 p.1 (List.mem_map_of_mem hp)
      have hhigh := le_maxKeyOf (List.mem_map_of_mem (f := Prod.fst) hp)
      have hp := hpos p hp
      omega
    have hle : minIndex ≤ maxIndex := by
      have hlow := (minKeyOf_spec hkeys).2 _ (maxKeyOf_mem hkeys)
      omega
    refine ⟨hpos,rfl,fun j => ?_,fun _ => rfl,fun _ => rfl,.inr ⟨hne,?_⟩⟩
    · dsimp only
      rw [setBitsFrom_eq fun i hi => Nat.div_le_div_right (hbounds i hi).1,bitAt_setBits,bitAt_replicate,Bool.or_false,
        ← Bool.decide_and]
      · apply decide_eq_decide.mpr
        rw [List.mem_map]
        constructor
        · rintro ⟨hj,i,hi,heq⟩
          have hbase := (hbounds i hi).1
          have hij : i = j := by omega
          exact hij ▸ hi
        · intro hj
          have hbase := (hbounds j hj).1
          exact ⟨by omega,j,hj,rfl⟩
      · intro i hi
        obtain ⟨k,hk,rfl⟩ := List.mem_map.mp hi
        have hk := hbounds k hk
        rw [List.length_replicate]
        omega
    · dsimp only
      rw [setBitsFrom_eq fun i hi => Nat.div_le_div_right (hbounds i hi).1,length_setBits,List.length_replicate,hmaxKey]
      omega

theorem bitAt_foldl_orWords {bitmaps : List DenseI64RankChunkBitmap} {words : List ℕ}
    (h : ∀ c ∈ bitmaps, c.baseWord + c.words.length ≤ words.length) (j : ℕ) :
    bitAt (bitmaps.foldl (fun words chunk => orWords words chunk.baseWord chunk.words) words) j =
      (bitAt words j || bitmaps.any fun c => decide (64 * c.baseWord ≤ j) && bitAt c.words (j - 64 * c.baseWord)) := by
  induction bitmaps generalizing words with
  | nil => simp
  | cons c bitmaps ih =>
    have hrest : ∀ d ∈ bitmaps, d.baseWord + d.words.length ≤ (orWords words c.baseWord c.words).length := fun d hd => by
      rw [length_orWords]
      exact h d (List.mem_cons_of_mem c hd)
    rw [List.foldl_cons,ih hrest,bitAt_orWords (h c List.mem_cons_self),List.any_cons,Bool.or_assoc]

variable {chunks : List (List (ℤ × τ))} {bitmaps : List DenseI64RankChunkBitmap}

theorem any_bits (h : List.Forall₂ (fun pairs c => BitmapOf c pairs) chunks bitmaps) (j : ℕ) :
    (bitmaps.any fun c => decide (64 * c.baseWord ≤ j) && bitAt c.words (j - 64 * c.baseWord)) =
      decide (j ∈ chunks.flatten.map fun p => p.1.toNat) := by
  induction h with
  | nil => simp
  | cons hc _ ih =>
    rw [List.any_cons,ih,hc.bits,List.flatten_cons,List.map_append,← Bool.decide_or]
    exact decide_eq_decide.mpr List.mem_append.symm

/-- Chunks found to be in order hold smaller keys before greater ones. -/
theorem ordered_keys (h : List.Forall₂ (fun pairs c => BitmapOf c pairs) chunks bitmaps) {previousMax : Option ℤ}
    (hordered : orderedNonOverlapping previousMax bitmaps = true) :
    (∀ m ∈ previousMax, ∀ p ∈ chunks.flatten, m < p.1) ∧
      chunks.Pairwise fun front back => ∀ p ∈ front, ∀ q ∈ back, p.1 < q.1 := by
  induction h generalizing previousMax with
  | nil => exact ⟨by simp,.nil⟩
  | @cons pairs c chunks bitmaps hc _ ih =>
    unfold orderedNonOverlapping at hordered
    rw [hc.count] at hordered
    split_ifs at hordered with hempty hafter
    · have hnil := List.length_eq_zero_iff.mp hempty
      obtain ⟨hbefore,hpairwise⟩ := ih hordered
      subst hnil
      exact ⟨hbefore,List.pairwise_cons.mpr ⟨by simp,hpairwise⟩⟩
    · have hne : pairs ≠ [] := fun hnil => hempty (hnil ▸ rfl)
      have hkeys : pairs.map Prod.fst ≠ [] := fun hnil => hne (List.map_eq_nil_iff.mp hnil)
      obtain ⟨hbefore,hpairwise⟩ := ih hordered
      have hchunk : ∀ p ∈ pairs, c.minKey ≤ p.1 ∧ p.1 ≤ c.maxKey := fun p hp =>
        ⟨hc.minKey hne ▸ (minKeyOf_spec hkeys).2 p.1 (List.mem_map_of_mem hp),
          hc.maxKey hne ▸ le_maxKeyOf (List.mem_map_of_mem hp)⟩
      have hrest : ∀ p ∈ pairs, ∀ q ∈ chunks.flatten, p.1 < q.1 := fun p hp q hq =>
        (hchunk p hp).2.trans_lt (hbefore c.maxKey rfl q hq)
      refine ⟨fun m hm p hp => ?_,List.pairwise_cons.mpr ⟨fun back hback p hp q hq => hrest p hp q (List.mem_flatten.mpr ⟨back,hback,hq⟩),
        hpairwise⟩⟩
      cases hm
      have hlt : m < c.minKey := by simpa using hafter
      rcases List.mem_append.mp (List.flatten_cons ▸ hp) with hp | hp
      · exact hlt.trans_le (hchunk p hp).1
      · obtain ⟨q,hq⟩ := List.exists_mem_of_ne_nil pairs hne
        exact hlt.trans_le ((hchunk q hq).1.trans (hrest q hq p hp).le)

end Chunks

section Parts
variable {τ : Type*} [Inhabited τ] {words prefixes : List ℕ} {total : ℕ} {pairs : List (ℤ × τ)} {chunks : List (List (ℤ × τ))}

omit [Inhabited τ] in
theorem foldlM_set_eq {rankOf : ℤ → Option ℕ} (place : ℤ → ℕ) {base : ℕ} {values out : List τ}
    (hrank : ∀ p ∈ pairs, rankOf p.1 = some (place p.1))
    (h : pairs.foldlM (fun values p => (rankOf p.1).bind fun rank =>
      if base ≤ rank ∧ rank - base < values.length then some (values.set (rank - base) p.2) else none) values = some out) :
    (∀ p ∈ pairs, base ≤ place p.1 ∧ place p.1 - base < values.length) ∧
      out = pairs.foldl (fun values p => values.set (place p.1 - base) p.2) values := by
  induction pairs generalizing values with
  | nil =>
    cases h
    exact ⟨by simp,rfl⟩
  | cons p pairs ih =>
    rw [List.foldlM_cons,hrank p List.mem_cons_self,Option.bind_some] at h
    split_ifs at h with hp
    · obtain ⟨hrest,hout⟩ := ih (fun q hq => hrank q (List.mem_cons_of_mem p hq)) h
      rw [List.length_set] at hrest
      refine ⟨fun q hq => ?_,hout⟩
      rcases List.mem_cons.mp hq with rfl | hq
      · exact hp
      · exact hrest q hq
    · cases h

omit [Inhabited τ] in
theorem foldlM_map_set {rankOf : ℤ → Option ℕ} (place : ℤ → ℕ) (values : List τ)
    (hrank : ∀ p ∈ pairs, rankOf p.1 = some (place p.1)) :
    pairs.foldlM (fun values p => (rankOf p.1).map fun rank => values.set rank p.2) values =
      some (pairs.foldl (fun values p => values.set (place p.1) p.2) values) := by
  induction pairs generalizing values with
  | nil => rfl
  | cons p pairs ih =>
    rw [List.foldlM_cons,hrank p List.mem_cons_self,Option.map_some]
    exact ih _ fun q hq => hrank q (List.mem_cons_of_mem p hq)

def baseRank (words : List ℕ) (pairs : List (ℤ × τ)) : ℕ := rank words (minKeyOf (pairs.map Prod.fst)).toNat

/-- The part of the values that a chunk fills. -/
structure PartOf (words : List ℕ) (pairs : List (ℤ × τ)) (part : List τ) : Prop where
  length : part.length = pairs.length
  value : ∀ key ∈ pairs.map Prod.fst, baseRank words pairs ≤ rank words key.toNat ∧
    rank words key.toNat - baseRank words pairs < part.length ∧
    part[rank words key.toNat - baseRank words pairs]? = Map.lastFor pairs key

theorem partOf_chunkValues (h : buildRankPrefixes words 0 = some (prefixes,total)) (hpos : ∀ p ∈ pairs, 0 ≤ p.1)
    (hbits : ∀ p ∈ pairs, bitAt words p.1.toNat = true) {part : List τ} (hpart : chunkValues words prefixes pairs = some part) :
    PartOf words pairs part := by
  unfold chunkValues at hpart
  split_ifs at hpart with hempty
  · cases hpart
    rw [List.isEmpty_iff.mp hempty]
    exact ⟨rfl,by simp⟩
  · obtain ⟨base,hbase,hpart⟩ := Option.bind_eq_some_iff.mp hpart
    rw [denseI64RankFromParts_eq h] at hbase
    split_ifs at hbase
    have hbase : baseRank words pairs = base := Option.some.inj hbase
    subst hbase
    have hrank : ∀ p ∈ pairs, denseI64RankFromParts words prefixes p.1 = some (rank words p.1.toNat) := fun p hp => by
      rw [denseI64RankFromParts_eq h,if_pos ⟨hpos p hp,hbits p hp⟩]
    obtain ⟨hplaces,rfl⟩ := foldlM_set_eq (fun key => rank words key.toNat) hrank hpart
    have hlength := length_foldl_set (fun key => rank words key.toNat - baseRank words pairs) pairs
      (List.replicate pairs.length (default : τ))
    refine ⟨hlength.trans (List.length_replicate ..),fun key hkey => ?_⟩
    obtain ⟨q,hq,rfl⟩ := List.mem_map.mp hkey
    have hplace : ∀ p ∈ pairs, rank words p.1.toNat - baseRank words pairs = rank words q.1.toNat - baseRank words pairs →
        p.1 = q.1 := by
      intro p hp heq
      have hle := (hplaces p hp).1
      have hle' := (hplaces q hq).1
      have hindex := rank_injective (hbits p hp) (hbits q hq) (by omega)
      have hp := hpos p hp
      have hq := hpos q hq
      omega
    obtain ⟨value,hvalue⟩ := Option.ne_none_iff_exists'.mp fun hnone => Map.lastFor_eq_none.mp hnone hkey
    refine ⟨(hplaces q hq).1,hlength.symm ▸ (hplaces q hq).2,?_⟩
    rw [foldl_set_getElem? (fun key => rank words key.toNat - baseRank words pairs) q.1 pairs _ hplace (hplaces q hq).2,hvalue]
    rfl

omit [Inhabited τ] in
theorem rank_eq_length {indices : List ℕ} (hbits : ∀ i, bitAt words i = decide (i ∈ indices)) (hnodup : indices.Nodup) (i : ℕ) :
    rank words i = (indices.filter (· < i)).length := by
  rw [rank,List.countP_eq_length_filter]
  apply List.Perm.length_eq
  apply (List.perm_ext_iff_of_nodup (List.nodup_range.filter _) (hnodup.filter _)).mpr
  intro k
  simp only [List.mem_filter,List.mem_range,hbits,decide_eq_true_eq]
  exact and_comm

omit [Inhabited τ] in
theorem nodup_of_total (h : buildRankPrefixes words 0 = some (prefixes,total)) {indices : List ℕ}
    (hbits : ∀ i, bitAt words i = decide (i ∈ indices)) (htotal : total = indices.length) : indices.Nodup := by
  have hdedup : total = indices.dedup.length := by
    have hbits' (i : ℕ) : bitAt words i = decide (i ∈ indices.dedup) := by rw [hbits,decide_eq_decide,List.mem_dedup]
    rw [total_eq h,rank_eq_length hbits' indices.nodup_dedup]
    congr 1
    apply List.filter_eq_self.mpr
    intro i hi
    have hlt := bitAt_lt (by rw [hbits,decide_eq_true_eq]; exact List.mem_dedup.mp hi : bitAt words i = true)
    rw [decide_eq_true_eq]
    omega
  rw [← (List.dedup_sublist indices).eq_of_length (hdedup.symm.trans htotal)]
  exact indices.nodup_dedup

omit [Inhabited τ] in
/-- The parts of ordered chunks put together hold each value at the rank of its key. -/
theorem parts_getElem? {parts : List (List τ)} (hparts : List.Forall₂ (PartOf words) chunks parts)
    (hordered : chunks.Pairwise fun front back => ∀ p ∈ front, ∀ q ∈ back, p.1 < q.1) {offset : ℕ}
    (hoffset : ∀ front chunk back, chunks = front ++ chunk :: back → chunk ≠ [] →
      baseRank words chunk = offset + front.flatten.length) {key : ℤ} (hkey : key ∈ chunks.flatten.map Prod.fst) :
    offset ≤ rank words key.toNat ∧ parts.flatten[rank words key.toNat - offset]? = Map.lastFor chunks.flatten key := by
  induction hparts generalizing offset with
  | nil => simp at hkey
  | @cons chunk part chunks parts hpart _ ih =>
    obtain ⟨hfirst,hrest⟩ := List.pairwise_cons.mp hordered
    rw [List.flatten_cons,List.map_append,List.mem_append] at hkey
    rw [List.flatten_cons,List.flatten_cons,Map.lastFor_append]
    by_cases hback : key ∈ chunks.flatten.map Prod.fst
    · have hshift : ∀ front chunk' back, chunks = front ++ chunk' :: back → chunk' ≠ [] →
          baseRank words chunk' = offset + chunk.length + front.flatten.length := by
        intro front chunk' back heq hne
        rw [hoffset (chunk :: front) chunk' back (by rw [heq]; rfl) hne,List.flatten_cons,List.length_append,Nat.add_assoc]
      obtain ⟨hle,hget⟩ := ih hrest hshift hback
      obtain ⟨value,hvalue⟩ := Option.ne_none_iff_exists'.mp fun hnone => Map.lastFor_eq_none.mp hnone hback
      refine ⟨by omega,?_⟩
      have hindex : rank words key.toNat - offset - part.length = rank words key.toNat - (offset + chunk.length) := by
        rw [hpart.length]
        omega
      rw [List.getElem?_append_right (by rw [hpart.length]; omega),hindex,hget,hvalue]
      rfl
    · have hfront := hkey.resolve_right hback
      obtain ⟨p,hp,rfl⟩ := List.mem_map.mp hfront
      have hbase := hoffset [] chunk chunks rfl (List.ne_nil_of_mem hp)
      rw [List.flatten_nil,List.length_nil,Nat.add_zero] at hbase
      obtain ⟨hle,hlt,hget⟩ := hpart.value p.1 hfront
      rw [hbase] at hle hlt hget
      rw [List.getElem?_append_left hlt,hget,Map.lastFor_eq_none.mpr hback,Option.none_or]
      exact ⟨hle,rfl⟩

end Parts

section Build
variable {τ : Type*} [Inhabited τ] {valueBytes maxBytes : ℕ} {chunks : List (List (ℤ × τ))}
variable {words prefixes : List ℕ} {total : ℕ}

/-- Ordered chunks without a duplicate fill their own parts. -/
theorem ordered_values (h : buildRankPrefixes words 0 = some (prefixes,total)) (hpos : ∀ p ∈ chunks.flatten, 0 ≤ p.1)
    (hbits : ∀ i, bitAt words i = decide (i ∈ chunks.flatten.map fun p => p.1.toNat))
    (hordered : chunks.Pairwise fun front back => ∀ p ∈ front, ∀ q ∈ back, p.1 < q.1) (htotal : total = chunks.flatten.length)
    {parts : List (List τ)} (hparts : chunks.mapM (chunkValues words prefixes) = some parts) {key : ℤ}
    (hkey : key ∈ chunks.flatten.map Prod.fst) : parts.flatten[rank words key.toNat]? = Map.lastFor chunks.flatten key := by
  have hbit : ∀ p ∈ chunks.flatten, bitAt words p.1.toNat = true := fun p hp => by
    rw [hbits,decide_eq_true_eq]
    exact List.mem_map.mpr ⟨p,hp,rfl⟩
  have hforall : List.Forall₂ (PartOf words) chunks parts := by
    have hpart : ∀ chunk ∈ chunks, ∀ part, chunkValues words prefixes chunk = some part ↔
        chunkValues words prefixes chunk = some part ∧ PartOf words chunk part := by
      intro chunk hchunk part
      have hmem : ∀ p ∈ chunk, p ∈ chunks.flatten := fun p hp => List.mem_flatten.mpr ⟨chunk,hchunk,hp⟩
      exact ⟨fun hsome => ⟨hsome,partOf_chunkValues h (fun p hp => hpos p (hmem p hp)) (fun p hp => hbit p (hmem p hp)) hsome⟩,And.left⟩
    exact ((forall₂_congr_mem hpart).mp (mapM_eq_some_iff.mp hparts)).imp fun _ _ => And.right
  have hnodup := nodup_of_total h hbits (htotal.trans (List.length_map ..).symm)
  have hoffset : ∀ front chunk back, chunks = front ++ chunk :: back → chunk ≠ [] →
      baseRank words chunk = 0 + front.flatten.length := by
    rintro front chunk back rfl hne
    obtain ⟨_,hback,hfront⟩ := List.pairwise_append.mp hordered
    have hkeys : chunk.map Prod.fst ≠ [] := fun hnil => hne (List.map_eq_nil_iff.mp hnil)
    obtain ⟨hmem,hmin⟩ := minKeyOf_spec hkeys
    obtain ⟨least,hleast,hleastKey⟩ := List.mem_map.mp hmem
    have hflat : (front ++ chunk :: back).flatten = front.flatten ++ (chunk ++ back.flatten) := by simp
    rw [baseRank,rank_eq_length hbits hnodup,hflat,List.map_append,List.filter_append,List.length_append,Nat.zero_add]
    rw [hflat] at hpos
    have hleastPos := hpos least (List.mem_append_right _ (List.mem_append_left _ hleast))
    have hbefore : (front.flatten.map fun p => p.1.toNat).filter (· < (minKeyOf (chunk.map Prod.fst)).toNat) =
        front.flatten.map fun p => p.1.toNat := by
      apply List.filter_eq_self.mpr
      intro i hi
      obtain ⟨p,hp,rfl⟩ := List.mem_map.mp hi
      obtain ⟨part,hpart,hp'⟩ := List.mem_flatten.mp hp
      have hlt := hfront part hpart chunk List.mem_cons_self p hp' least hleast
      have hp := hpos p (List.mem_append_left _ hp)
      rw [decide_eq_true_eq]
      omega
    have hafter : ((chunk ++ back.flatten).map fun p => p.1.toNat).filter (· < (minKeyOf (chunk.map Prod.fst)).toNat) = [] := by
      apply List.filter_eq_nil_iff.mpr
      intro i hi
      obtain ⟨p,hp,rfl⟩ := List.mem_map.mp hi
      have hle : minKeyOf (chunk.map Prod.fst) ≤ p.1 := by
        rcases List.mem_append.mp hp with hp | hp
        · exact hmin p.1 (List.mem_map_of_mem hp)
        · obtain ⟨part,hpart,hp'⟩ := List.mem_flatten.mp hp
          rw [← hleastKey]
          exact ((List.pairwise_cons.mp hback).1 part hpart least hleast p hp').le
      have hp := hpos p (List.mem_append_right _ hp)
      rw [decide_eq_true_eq]
      omega
    rw [hbefore,hafter,List.length_map,List.length_nil,Nat.add_zero]
  exact (parts_getElem? hforall hordered hoffset hkey).2

theorem general_values (h : buildRankPrefixes words 0 = some (prefixes,total)) (hpos : ∀ p ∈ chunks.flatten, 0 ≤ p.1)
    (hbits : ∀ i, bitAt words i = decide (i ∈ chunks.flatten.map fun p => p.1.toNat)) {values : List τ}
    (hvalues : chunks.flatten.foldlM (fun values p => (denseI64RankFromParts words prefixes p.1).map fun rank => values.set rank p.2)
      (List.replicate total default) = some values) {key : ℤ} (hkey : key ∈ chunks.flatten.map Prod.fst) :
    values[rank words key.toNat]? = Map.lastFor chunks.flatten key := by
  have hrank : ∀ p ∈ chunks.flatten, denseI64RankFromParts words prefixes p.1 = some (rank words p.1.toNat) := fun p hp => by
    have hbit : bitAt words p.1.toNat = true := by
      rw [hbits,decide_eq_true_eq]
      exact List.mem_map.mpr ⟨p,hp,rfl⟩
    rw [denseI64RankFromParts_eq h,if_pos ⟨hpos p hp,hbit⟩]
  rw [foldlM_map_set (fun key => rank words key.toNat) _ hrank] at hvalues
  cases hvalues
  exact stored_getElem? h hbits hpos hkey

omit [Inhabited τ] in
theorem bitmap_fits {bitmaps : List DenseI64RankChunkBitmap}
    (hbitmaps : List.Forall₂ (fun pairs c => BitmapOf c pairs) chunks bitmaps) {wordCount : ℕ}
    (hcount : wordCountFor (maxKeyOf ((bitmaps.filter fun chunk => chunk.pairCount ≠ 0).map (·.maxKey))) = some wordCount) :
    ∀ c ∈ bitmaps, c.baseWord + c.words.length ≤ wordCount := by
  intro c hc
  obtain ⟨pairs,_,hof⟩ := exists_of_forall₂_right hbitmaps hc
  rcases hof.fits with ⟨hnil,hzero⟩ | ⟨hne,hle⟩
  · simp [hnil,hzero]
  · have hfilled : c ∈ bitmaps.filter fun chunk => chunk.pairCount ≠ 0 := by
      apply List.mem_filter.mpr
      have hcount : c.pairCount ≠ 0 := hof.count ▸ fun hlen => hne (List.length_eq_zero_iff.mp hlen)
      exact ⟨hc,decide_eq_true hcount⟩
    exact hle.trans (div_lt_wordCount hcount (le_maxKeyOf (List.mem_map_of_mem hfilled)))

omit [Inhabited τ] in
theorem bits_of_bitmaps {bitmaps : List DenseI64RankChunkBitmap}
    (hbitmaps : List.Forall₂ (fun pairs c => BitmapOf c pairs) chunks bitmaps) {wordCount : ℕ}
    (hcount : wordCountFor (maxKeyOf ((bitmaps.filter fun chunk => chunk.pairCount ≠ 0).map (·.maxKey))) = some wordCount)
    (i : ℕ) : bitAt (bitmaps.foldl (fun words chunk => orWords words chunk.baseWord chunk.words) (List.replicate wordCount 0)) i =
      decide (i ∈ chunks.flatten.map fun p => p.1.toNat) := by
  have hfits : ∀ c ∈ bitmaps, c.baseWord + c.words.length ≤ (List.replicate wordCount 0).length := by
    rw [List.length_replicate]
    exact bitmap_fits hbitmaps hcount
  rw [bitAt_foldl_orWords hfits,bitAt_replicate,Bool.false_or,any_bits hbitmaps]

theorem foldlM_checked {ns : List ℕ} {start total : ℕ} (h : ns.foldlM (fun total n => checked (total + n)) start = some total) :
    total = start + ns.sum := by
  induction ns generalizing start with
  | nil =>
    cases h
    rfl
  | cons n ns ih =>
    rw [List.foldlM_cons] at h
    obtain ⟨next,hnext,h⟩ := Option.bind_eq_some_iff.mp h
    rw [ih h,checked_eq_some hnext,List.sum_cons,Nat.add_assoc]

omit [Inhabited τ] in
theorem sum_pairCount {bitmaps : List DenseI64RankChunkBitmap}
    (hbitmaps : List.Forall₂ (fun pairs c => BitmapOf c pairs) chunks bitmaps) :
    ((bitmaps.filter fun chunk => chunk.pairCount ≠ 0).map (·.pairCount)).sum = chunks.flatten.length := by
  induction hbitmaps with
  | nil => rfl
  | @cons pairs c chunks bitmaps hof _ ih =>
    rw [List.flatten_cons,List.length_append,← ih,← hof.count,List.filter_cons]
    split_ifs with hfilled
    · rw [List.map_cons,List.sum_cons]
    · have hzero : c.pairCount = 0 := by simpa using hfilled
      rw [hzero,Nat.zero_add]

/-- A map built from chunks has the value of the last pair of each key. -/
theorem fromChunksParallel_get {m : DenseI64RankMap τ}
    (hbuild : fromChunksParallel valueBytes maxBytes chunks = some m) (key : ℤ) :
    m.get key = Map.lastFor chunks.flatten key := by
  obtain ⟨bitmaps,hmapM,hbuild⟩ := Option.bind_eq_some_iff.mp hbuild
  have hbitmaps : List.Forall₂ (fun pairs c => BitmapOf c pairs) chunks bitmaps :=
    (mapM_eq_some_iff.mp hmapM).imp fun _ _ => bitmapOf_chunk
  have hpos : ∀ p ∈ chunks.flatten, 0 ≤ p.1 := by
    intro p hp
    obtain ⟨pairs,hpairs,hp⟩ := List.mem_flatten.mp hp
    obtain ⟨c,_,hof⟩ := exists_of_forall₂_left hbitmaps hpairs
    exact hof.pos p hp
  obtain ⟨pairCount,hpairs,hbuild⟩ := Option.bind_eq_some_iff.mp hbuild
  obtain ⟨_,_,hbuild⟩ := Option.bind_eq_some_iff.mp hbuild
  split_ifs at hbuild
  obtain ⟨wordCount,hcount,hbuild⟩ := Option.bind_eq_some_iff.mp hbuild
  have hbits := bits_of_bitmaps hbitmaps hcount
  obtain ⟨_,_,hbuild⟩ := Option.bind_eq_some_iff.mp hbuild
  obtain ⟨_,_,hbuild⟩ := Option.bind_eq_some_iff.mp hbuild
  split_ifs at hbuild
  obtain ⟨⟨prefixes,total⟩,hprefixes,hbuild⟩ := Option.bind_eq_some_iff.mp hbuild
  dsimp only at hbuild hprefixes
  split_ifs at hbuild with _ hpath
  · -- the chunks are in order and hold no duplicate
    obtain ⟨values,hvalues,rfl⟩ := Option.map_eq_some_iff.mp hbuild
    obtain ⟨parts,hparts,hvalues⟩ := Option.bind_eq_some_iff.mp hvalues
    split_ifs at hvalues
    cases hvalues
    have htotal : total = chunks.flatten.length := by
      rw [hpath.2,foldlM_checked hpairs,Nat.zero_add,sum_pairCount hbitmaps]
    exact get_of_stored hprefixes hbits hpos
      (fun _ hkey => ordered_values hprefixes hpos hbits (ordered_keys hbitmaps hpath.1).2 htotal hparts hkey) key
  · obtain ⟨values,hvalues,rfl⟩ := Option.map_eq_some_iff.mp hbuild
    exact get_of_stored hprefixes hbits hpos (fun _ hkey => general_values hprefixes hpos hbits hvalues hkey) key

/-- Both builders answer alike: with the value of the last pair of the key, and with nothing for other keys. -/
theorem builders_agree {sequential parallel : DenseI64RankMap τ}
    (hsequential : DenseI64RankMap.fromPairs valueBytes maxBytes chunks.flatten = some sequential)
    (hparallel : DenseI64RankMap.fromChunksParallel valueBytes maxBytes chunks = some parallel) (key : ℤ) :
    parallel.get key = sequential.get key ∧ sequential.get key = Map.lastFor chunks.flatten key ∧
      (sequential.get key = none ↔ key ∉ chunks.flatten.map Prod.fst) := by
  rw [fromChunksParallel_get hparallel,fromPairs_get hsequential]
  exact ⟨rfl,rfl,Map.lastFor_eq_none⟩

theorem builders_agree_sample :
    ((DenseI64RankMap.fromPairs 4 4096 [(64,(20 : ℕ)),(1,10),(64,21),(2,30)]).isSome ∧
      (DenseI64RankMap.fromChunksParallel 4 4096 [[(64,(20 : ℕ)),(1,10)],[(64,21),(2,30)]]).isSome) ∧
    (((DenseI64RankMap.fromChunksParallel 4 4096 [[(64,(20 : ℕ)),(1,10)],[(64,21),(2,30)]]).bind fun m => m.get 64) =
      ((DenseI64RankMap.fromPairs 4 4096 [(64,(20 : ℕ)),(1,10),(64,21),(2,30)]).bind fun m => m.get 64)) := by
  have hsome : (fromPairs 4 4096 [(64,(20 : ℕ)),(1,10),(64,21),(2,30)]).isSome ∧
      (fromChunksParallel 4 4096 [[(64,(20 : ℕ)),(1,10)],[(64,21),(2,30)]]).isSome := by
    constructor <;> decide +kernel
  refine ⟨hsome,?_⟩
  obtain ⟨sequential,hsequential⟩ := Option.isSome_iff_exists.mp hsome.1
  obtain ⟨parallel,hparallel⟩ := Option.isSome_iff_exists.mp hsome.2
  rw [hsequential,hparallel]
  exact (builders_agree hsequential hparallel 64).1

end Build
end Dodam.Dense
