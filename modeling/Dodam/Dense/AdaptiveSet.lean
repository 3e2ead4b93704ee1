import Dodam.Foundation.Bitmap

/-! # Adaptive sets of 64-bit keys

A set keeps small keys as flags and bits, and becomes a hash set with the first key that is
negative or past its bound.
-/
namespace Dodam.Dense
open Foundation

/-- The flags of the dense layouts with their bits and their number. -/
structure DenseKeys where
  present : List Bool
  words : List ℕ
  len : ℕ
  words_length : words.length = (present.length + 63) / 64
  agree : ∀ i, bitAt words i = present.getD i false
  len_eq : len = present.count true

namespace DenseKeys

def empty : DenseKeys := ⟨[],[],0,rfl,fun i => by simp,rfl⟩

/-- The flags made long enough for an index. -/
def grow (d : DenseKeys) (index : ℕ) : DenseKeys :=
  if h : d.present.length ≤ index then
    { present := resize d.present (index + 1) false
      words := resize d.words (index / 64 + 1) 0
      len := d.len
      words_length := by
        simp only [length_resize]
        omega
      agree := fun i => by
        rw [getD_resize (h.trans (Nat.le_succ index)),bitAt_resize,d.agree]
        rw [d.words_length]
        omega
      len_eq := by
        rw [resize_of_le (h.trans (Nat.le_succ index)),List.count_append,List.count_replicate]
        simpa using d.len_eq }
  else d

def mark (d : DenseKeys) (index : ℕ) : DenseKeys :=
  if h : d.present[index]? = some false then
    { present := d.present.set index true
      words := setBit d.words index
      len := d.len + 1
      words_length := by rw [length_setBit,List.length_set,d.words_length]
      agree := fun i => by
        have hlt : index < d.present.length := (List.getElem?_eq_some_iff.mp h).1
        rw [bitAt_setBit (by rw [d.words_length]; omega),d.agree]
        simp only [List.getD_eq_getElem?_getD,List.getElem?_set]
        by_cases hi : i = index
        · subst hi
          simp [hlt]
        · simp [hi,Ne.symm hi]
      len_eq := by
        obtain ⟨hlt,hget⟩ := List.getElem?_eq_some_iff.mp h
        rw [List.count_set hlt,hget]
        simp [d.len_eq] }
  else d

/-- `adaptive_i64_set_words_from_contains` -/
def wordsFromContains (present : List Bool) : List ℕ :=
  setBits (List.replicate ((present.length + 63) / 64) 0) ((List.range present.length).filter (present.getD · false))

theorem bitAt_wordsFromContains (present : List Bool) (i : ℕ) :
    bitAt (wordsFromContains present) i = present.getD i false := by
  rw [wordsFromContains,bitAt_setBits,bitAt_replicate,Bool.or_false]
  · by_cases hi : i < present.length
    · simp [hi]
    · simp [hi]
  · intro k hk
    have hlt := List.mem_range.mp (List.mem_filter.mp hk).1
    rw [List.length_replicate]
    omega

def ofPresent (present : List Bool) : DenseKeys where
  present := present
  words := wordsFromContains present
  len := present.count true
  words_length := by simp [wordsFromContains]
  agree := bitAt_wordsFromContains present
  len_eq := rfl

/-- `adaptive_i64_set_dense_to_hash` -/
def toHash (d : DenseKeys) : Finset ℤ :=
  (((List.range d.present.length).filter (d.present.getD · false)).map Int.ofNat).toFinset

section Keys
variable {d : DenseKeys} {key : ℤ}

theorem mem_toHash : key ∈ d.toHash ↔ 0 ≤ key ∧ d.present.getD key.toNat false = true := by
  simp only [toHash,List.mem_toFinset,List.mem_map,List.mem_filter,List.mem_range]
  constructor
  · rintro ⟨i,⟨_,hi⟩,rfl⟩
    exact ⟨Int.natCast_nonneg i,hi⟩
  · rintro ⟨hkey,hpresent⟩
    refine ⟨key.toNat,⟨?_,hpresent⟩,Int.toNat_of_nonneg hkey⟩
    by_contra hle
    rw [List.getD_eq_default _ _ (Nat.not_lt.mp hle)] at hpresent
    cases hpresent

theorem length_filter_getD (present : List Bool) :
    ((List.range present.length).filter (present.getD · false)).length = present.count true := by
  induction present with
  | nil => rfl
  | cons b present ih =>
    rw [List.length_cons,List.range_succ_eq_map,List.filter_cons,List.filter_map,List.count_cons]
    have hrest : ((fun i => (b :: present).getD i false) ∘ Nat.succ) = fun i => present.getD i false := by
      funext i
      simp
    rw [hrest]
    cases b <;> simpa using ih

theorem card_toHash (d : DenseKeys) : d.toHash.card = d.len := by
  rw [toHash,List.toFinset_card_of_nodup,List.length_map,length_filter_getD,d.len_eq]
  apply List.Nodup.map
  · exact fun _ _ h => Int.ofNat_inj.mp h
  · exact List.nodup_range.filter _

@[simp] theorem toHash_empty : DenseKeys.empty.toHash = ∅ := rfl

theorem grow_present (d : DenseKeys) (index i : ℕ) : (d.grow index).present.getD i false = d.present.getD i false := by
  unfold grow
  split
  · next h => exact getD_resize (h.trans (Nat.le_succ index)) false i
  · rfl

theorem lt_grow (d : DenseKeys) (index : ℕ) : index < (d.grow index).present.length := by
  unfold grow
  split
  · simp
  · next h => exact Nat.not_le.mp h

@[simp] theorem toHash_grow (d : DenseKeys) (index : ℕ) : (d.grow index).toHash = d.toHash := by
  ext key
  rw [mem_toHash,mem_toHash,grow_present]

theorem mark_length (d : DenseKeys) (index : ℕ) : (d.mark index).present.length = d.present.length := by
  unfold mark
  split <;> simp

theorem mark_present (d : DenseKeys) {index : ℕ} (h : index < d.present.length) (i : ℕ) :
    (d.mark index).present.getD i false = (decide (i = index) || d.present.getD i false) := by
  unfold mark
  simp only [List.getD_eq_getElem?_getD]
  by_cases hi : i = index
  · subst hi
    split
    · simp [h]
    · next hpresent =>
      rw [List.getElem?_eq_getElem h] at hpresent ⊢
      simpa using hpresent
  · split
    · simp [hi,Ne.symm hi]
    · simp [hi]

theorem toHash_mark (d : DenseKeys) {index : ℕ} (h : index < d.present.length) :
    (d.mark index).toHash = insert (index : ℤ) d.toHash := by
  ext key
  rw [Finset.mem_insert,mem_toHash,mem_toHash,mark_present d h]
  simp only [Bool.or_eq_true,decide_eq_true_eq]
  constructor
  · rintro ⟨hkey,heq | hpresent⟩
    · exact .inl (heq ▸ (Int.toNat_of_nonneg hkey).symm)
    · exact .inr ⟨hkey,hpresent⟩
  · rintro (rfl | ⟨hkey,hpresent⟩)
    · exact ⟨Int.natCast_nonneg index,.inl (Int.toNat_natCast index)⟩
    · exact ⟨hkey,.inr hpresent⟩

end Keys
end DenseKeys

open DenseKeys

/-- `adaptive_dense_index` -/
def adaptiveDenseIndex (key : ℤ) (maxDenseKey : ℕ) : Option ℕ :=
  if 0 ≤ key ∧ key.toNat ≤ maxDenseKey then some key.toNat else none

theorem adaptiveDenseIndex_eq_some {key : ℤ} {maxDenseKey index : ℕ} (h : adaptiveDenseIndex key maxDenseKey = some index) :
    key = index ∧ index ≤ maxDenseKey := by
  unfold adaptiveDenseIndex at h
  split_ifs at h with hkey
  cases h
  exact ⟨(Int.toNat_of_nonneg hkey.1).symm,hkey.2⟩

inductive AdaptiveI64Set
  | dense (keys : DenseKeys) (maxDenseKey : ℕ)
  | hash (keys : Finset ℤ)

namespace AdaptiveI64Set

def newDense (maxDenseKey : ℕ) : AdaptiveI64Set := .dense .empty maxDenseKey

def len : AdaptiveI64Set → ℕ
  | .dense d _ => d.len
  | .hash keys => keys.card

/-- `adaptive_i64_words_contains` -/
def wordsContain (words : List ℕ) (key : ℤ) : Bool := if 0 ≤ key then bitAt words key.toNat else false

def contains : AdaptiveI64Set → ℤ → Bool
  | .dense d _, key => wordsContain d.words key
  | .hash keys, key => decide (key ∈ keys)

def denseContainsSlice : AdaptiveI64Set → Option (List Bool)
  | .dense d _ => some d.present
  | .hash _ => none

def containsCached (s : AdaptiveI64Set) (denseContains : Option (List Bool)) (key : ℤ) : Bool :=
  match denseContains with
  | some present => if 0 ≤ key then present.getD key.toNat false else false
  | none => s.contains key

/-- A key put in; one without an index moves the keys to a hash set. -/
def insert : AdaptiveI64Set → ℤ → AdaptiveI64Set
  | .dense d maxDenseKey, key =>
    match adaptiveDenseIndex key maxDenseKey with
    | none => .hash (Insert.insert key d.toHash)
    | some index => .dense ((d.grow index).mark index) maxDenseKey
  | .hash keys, key => .hash (Insert.insert key keys)

/-- A batch put in at once, or refused whole. -/
def tryInsertDenseValues : AdaptiveI64Set → List ℤ → Bool × AdaptiveI64Set
  | .dense d maxDenseKey, values =>
    match values.mapM (adaptiveDenseIndex · maxDenseKey) with
    | none => (false,.dense d maxDenseKey)
    | some indices => (true,.dense (indices.foldl mark (d.grow (indices.foldl max 0))) maxDenseKey)
  | .hash keys, _ => (false,.hash keys)

/-- The set of a hash set, given in the order of its iteration. -/
def fromHash (values : List ℤ) (maxDenseKey : ℕ) : AdaptiveI64Set :=
  if values.isEmpty then newDense maxDenseKey
  else
    match values.mapM (adaptiveDenseIndex · maxDenseKey) with
    | none => .hash values.toFinset
    | some indices =>
      .dense (.ofPresent (indices.foldl (fun present index => present.set index true)
        (List.replicate (indices.foldl max 0 + 1) false))) maxDenseKey

/-- `DenseAtomicU8::into_adaptive_i64_set` -/
def ofMarkers (markers : List UInt8) (maxDenseKey : ℕ) : AdaptiveI64Set :=
  .dense (.ofPresent (markers.map (· ≠ 0))) maxDenseKey

def keys : AdaptiveI64Set → Finset ℤ
  | .dense d _ => d.toHash
  | .hash keys => keys

section Layouts
variable {s : AdaptiveI64Set} {key : ℤ}

theorem contains_eq (s : AdaptiveI64Set) (key : ℤ) : s.contains key = decide (key ∈ s.keys) := by
  cases s with
  | dense d maxDenseKey =>
    simp only [contains,keys,wordsContain,mem_toHash,d.agree]
    split_ifs with hkey <;> simp [hkey]
  | hash keys => rfl

theorem containsCached_eq (s : AdaptiveI64Set) (key : ℤ) :
    s.containsCached s.denseContainsSlice key = decide (key ∈ s.keys) := by
  cases s with
  | dense d maxDenseKey =>
    simp only [containsCached,denseContainsSlice,keys,mem_toHash]
    split_ifs with hkey <;> simp [hkey]
  | hash keys => rfl

theorem len_eq (s : AdaptiveI64Set) : s.len = s.keys.card := by
  cases s with
  | dense d maxDenseKey => exact d.card_toHash.symm
  | hash keys => rfl

theorem keys_insert (s : AdaptiveI64Set) (key : ℤ) : (s.insert key).keys = Insert.insert key s.keys := by
  cases s with
  | hash keys => rfl
  | dense d maxDenseKey =>
    simp only [insert]
    split
    · rfl
    · next index hindex =>
      rw [(adaptiveDenseIndex_eq_some hindex).1]
      exact (toHash_mark _ (lt_grow d index)).trans (by rw [toHash_grow]; rfl)

theorem mapM_adaptiveDenseIndex {values : List ℤ} {maxDenseKey : ℕ} {indices : List ℕ}
    (h : values.mapM (adaptiveDenseIndex · maxDenseKey) = some indices) : values = indices.map Int.ofNat := by
  induction values generalizing indices with
  | nil =>
    cases h
    rfl
  | cons key values ih =>
    simp only [List.mapM_cons,Option.bind_eq_bind,Option.bind_eq_some_iff] at h
    obtain ⟨index,hindex,rest,hrest,hsome⟩ := h
    cases hsome
    rw [List.map_cons,← ih hrest,(adaptiveDenseIndex_eq_some hindex).1]
    rfl

theorem le_foldl_max (indices : List ℕ) (start : ℕ) : start ≤ indices.foldl max start ∧ ∀ i ∈ indices, i ≤ indices.foldl max start := by
  induction indices generalizing start with
  | nil => exact ⟨le_rfl,by simp⟩
  | cons j indices ih =>
    obtain ⟨hstart,hrest⟩ := ih (max start j)
    refine ⟨(Nat.le_max_left start j).trans hstart,fun i hi => ?_⟩
    rcases List.mem_cons.mp hi with rfl | hi
    · exact (Nat.le_max_right start i).trans hstart
    · exact hrest i hi

theorem toHash_foldl_mark {d : DenseKeys} {indices : List ℕ} (h : ∀ i ∈ indices, i < d.present.length) :
    (indices.foldl mark d).toHash = d.toHash ∪ (indices.map Int.ofNat).toFinset := by
  induction indices generalizing d with
  | nil => simp
  | cons i indices ih =>
    rw [List.foldl_cons,ih fun j hj => (mark_length d i).symm ▸ h j (List.mem_cons_of_mem i hj),
      toHash_mark d (h i List.mem_cons_self)]
    ext key
    simp only [Finset.mem_union,Finset.mem_insert,List.map_cons,List.toFinset_cons,Int.ofNat_eq_natCast]
    tauto

theorem tryInsertDenseValues_cases (s : AdaptiveI64Set) (values : List ℤ) :
    s.tryInsertDenseValues values = (false,s) ∨
      (s.tryInsertDenseValues values).1 = true ∧ (s.tryInsertDenseValues values).2.keys = s.keys ∪ values.toFinset := by
  cases s with
  | hash keys => exact .inl rfl
  | dense d maxDenseKey =>
    simp only [tryInsertDenseValues]
    split
    · exact .inl rfl
    · next indices hindices =>
      refine .inr ⟨rfl,?_⟩
      have hlt : ∀ i ∈ indices, i < (d.grow (indices.foldl max 0)).present.length := fun i hi =>
        ((le_foldl_max indices 0).2 i hi).trans_lt (d.lt_grow _)
      rw [mapM_adaptiveDenseIndex hindices]
      exact (toHash_foldl_mark hlt).trans (by rw [toHash_grow]; rfl)

theorem getD_foldl_set {present : List Bool} {indices : List ℕ} (h : ∀ i ∈ indices, i < present.length) (j : ℕ) :
    (indices.foldl (fun present index => present.set index true) present).getD j false =
      (decide (j ∈ indices) || present.getD j false) := by
  induction indices generalizing present with
  | nil => simp
  | cons i indices ih =>
    rw [List.foldl_cons,ih fun k hk => (List.length_set ..).symm ▸ h k (List.mem_cons_of_mem i hk)]
    by_cases hij : j = i
    · subst hij
      simp [h j List.mem_cons_self]
    · simp [hij,Ne.symm hij]

theorem keys_fromHash (values : List ℤ) (maxDenseKey : ℕ) : (fromHash values maxDenseKey).keys = values.toFinset := by
  unfold fromHash
  split_ifs with hempty
  · rw [List.isEmpty_iff.mp hempty]
    rfl
  · split
    · rfl
    · next indices hindices =>
      rw [mapM_adaptiveDenseIndex hindices]
      ext key
      have hlt : ∀ i ∈ indices, i < (List.replicate (indices.foldl max 0 + 1) false).length := fun i hi => by
        rw [List.length_replicate]
        exact Nat.lt_succ_of_le ((le_foldl_max indices 0).2 i hi)
      simp only [keys,mem_toHash,ofPresent,getD_foldl_set hlt,getD_replicate_self,Bool.or_false,
        decide_eq_true_eq,List.mem_toFinset,List.mem_map,Int.ofNat_eq_natCast]
      constructor
      · rintro ⟨hkey,hmem⟩
        exact ⟨key.toNat,hmem,Int.toNat_of_nonneg hkey⟩
      · rintro ⟨i,hi,rfl⟩
        exact ⟨Int.natCast_nonneg i,hi⟩

theorem keys_ofMarkers (markers : List UInt8) (maxDenseKey : ℕ) (key : ℤ) :
    key ∈ (ofMarkers markers maxDenseKey).keys ↔ 0 ≤ key ∧ markers.getD key.toNat 0 ≠ 0 := by
  simp only [ofMarkers,keys,mem_toHash,ofPresent,List.getD_eq_getElem?_getD,List.getElem?_map]
  cases markers[key.toNat]? <;> simp

end Layouts

inductive Source
  | empty
  | hash (values : List ℤ)
  | markers (flags : List UInt8)

def Source.build (maxDenseKey : ℕ) : Source → AdaptiveI64Set
  | .empty => newDense maxDenseKey
  | .hash values => fromHash values maxDenseKey
  | .markers flags => ofMarkers flags maxDenseKey

def Source.Holds : Source → ℤ → Prop
  | .empty, _ => False
  | .hash values, key => key ∈ values
  | .markers flags, key => 0 ≤ key ∧ flags.getD key.toNat 0 ≠ 0

inductive Insertion
  | one (key : ℤ)
  | batch (values : List ℤ)

def Insertion.values : Insertion → List ℤ
  | .one key => [key]
  | .batch values => values

/-- An insertion with its answer; a single key is always taken. -/
def apply (s : AdaptiveI64Set) : Insertion → Bool × AdaptiveI64Set
  | .one key => (true,s.insert key)
  | .batch values => s.tryInsertDenseValues values

def applyAll (s : AdaptiveI64Set) : List Insertion → AdaptiveI64Set
  | [] => s
  | insertion :: rest => (s.apply insertion).2.applyAll rest

/-- The values of the insertions that are not refused. -/
def inserted (s : AdaptiveI64Set) : List Insertion → List ℤ
  | [] => []
  | insertion :: rest =>
    (if (s.apply insertion).1 then insertion.values else []) ++ (s.apply insertion).2.inserted rest

theorem apply_cases (s : AdaptiveI64Set) (insertion : Insertion) :
    s.apply insertion = (false,s) ∨
      (s.apply insertion).1 = true ∧ (s.apply insertion).2.keys = s.keys ∪ insertion.values.toFinset := by
  cases insertion with
  | one key =>
    refine .inr ⟨rfl,?_⟩
    rw [apply,keys_insert,Insertion.values,Finset.insert_eq,Finset.union_comm]
    rfl
  | batch values => exact tryInsertDenseValues_cases s values

theorem keys_applyAll (s : AdaptiveI64Set) (insertions : List Insertion) :
    (s.applyAll insertions).keys = s.keys ∪ (s.inserted insertions).toFinset := by
  induction insertions generalizing s with
  | nil => simp [applyAll,inserted]
  | cons insertion insertions ih =>
    rw [applyAll,ih,inserted,List.toFinset_append,← Finset.union_assoc]
    rcases apply_cases s insertion with hrefused | ⟨htaken,hkeys⟩
    · simp [hrefused]
    · rw [hkeys,if_pos htaken]

theorem mem_keys_build (source : Source) (maxDenseKey : ℕ) (key : ℤ) : key ∈ (source.build maxDenseKey).keys ↔ source.Holds key := by
  cases source with
  | empty => simp [Source.build,newDense,keys,Source.Holds]
  | hash values => rw [Source.build,keys_fromHash,List.mem_toFinset,Source.Holds]
  | markers flags => exact keys_ofMarkers flags maxDenseKey key

/-- Whatever the layout, the set answers as the keys it started with and those put in since. -/
theorem applyAll_isSet (source : Source) (maxDenseKey : ℕ) (insertions : List Insertion) :
    ∃ members : Finset ℤ,
      (∀ key, key ∈ members ↔ source.Holds key ∨ key ∈ (source.build maxDenseKey).inserted insertions) ∧
      (∀ key, ((source.build maxDenseKey).applyAll insertions).contains key = decide (key ∈ members) ∧
        ((source.build maxDenseKey).applyAll insertions).containsCached none key = decide (key ∈ members) ∧
        ((source.build maxDenseKey).applyAll insertions).containsCached
          ((source.build maxDenseKey).applyAll insertions).denseContainsSlice key = decide (key ∈ members)) ∧
      ((source.build maxDenseKey).applyAll insertions).len = members.card ∧
      ∀ values, (((source.build maxDenseKey).applyAll insertions).tryInsertDenseValues values).1 = true ∨
        ((source.build maxDenseKey).applyAll insertions).tryInsertDenseValues values =
          (false,(source.build maxDenseKey).applyAll insertions) := by
  refine ⟨((source.build maxDenseKey).applyAll insertions).keys,fun key => ?_,fun key => ⟨?_,?_,?_⟩,?_,fun values => ?_⟩
  · rw [keys_applyAll,Finset.mem_union,mem_keys_build,List.mem_toFinset]
  · exact contains_eq _ key
  · exact contains_eq _ key
  · exact containsCached_eq _ key
  · exact len_eq _
  · rcases tryInsertDenseValues_cases ((source.build maxDenseKey).applyAll insertions) values with hrefused | ⟨htaken,_⟩
    · exact .inr hrefused
    · exact .inl htaken

example : ((newDense 70).applyAll [.one 3,.batch [64,3],.batch [99],.one (-1)]).len = 3 := by decide

end AdaptiveI64Set
end Dodam.Dense
