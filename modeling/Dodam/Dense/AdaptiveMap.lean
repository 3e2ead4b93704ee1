import Dodam.Dense.AdaptiveSet
import Dodam.Foundation.KeyedTable

/-! # Adaptive maps of 64-bit keys

The dense layout keeps a value for each flag; a key without an index moves the entries to a hash
map.
-/
namespace Dodam.Dense
open Foundation DenseKeys

structure DenseEntries (ν : Type*) extends DenseKeys where
  values : List ν
  values_length : values.length = present.length

namespace DenseEntries
variable {ν : Type*}

def empty : DenseEntries ν := ⟨.empty,[],rfl⟩

/-- The layout of `n` absent keys. -/
def blank [Inhabited ν] (n : ℕ) : DenseEntries ν := ⟨.ofPresent (List.replicate n false),List.replicate n default,by simp [ofPresent]⟩

theorem grow_length (d : DenseKeys) (index : ℕ) :
    (d.grow index).present.length = if d.present.length ≤ index then index + 1 else d.present.length := by
  unfold grow
  split <;> simp_all

def grow [Inhabited ν] (d : DenseEntries ν) (index : ℕ) : DenseEntries ν where
  toDenseKeys := d.toDenseKeys.grow index
  values := if d.values.length ≤ index then resize d.values (index + 1) default else d.values
  values_length := by
    rw [grow_length,d.values_length]
    split
    · exact length_resize ..
    · exact d.values_length

def put (d : DenseEntries ν) (index : ℕ) (value : ν) : DenseEntries ν where
  toDenseKeys := d.toDenseKeys.mark index
  values := d.values.set index value
  values_length := by rw [List.length_set,mark_length,d.values_length]

def modify (d : DenseEntries ν) (index : ℕ) (f : ν → ν) : DenseEntries ν where
  toDenseKeys := d.toDenseKeys
  values := d.values.modify index f
  values_length := by rw [List.length_modify,d.values_length]

def lookup (d : DenseEntries ν) (key : ℤ) : Option ν :=
  if 0 ≤ key ∧ d.present.getD key.toNat false = true then d.values[key.toNat]? else none

section Lookup
variable {d : DenseEntries ν} {key : ℤ} {index : ℕ}

theorem lt_of_present (h : d.present.getD index false = true) : index < d.values.length := by
  rw [d.values_length]
  by_contra hle
  rw [List.getD_eq_default _ _ (Nat.not_lt.mp hle)] at h
  cases h

theorem lookup_isSome_iff : (d.lookup key).isSome ↔ key ∈ d.toHash := by
  rw [mem_toHash,lookup]
  split_ifs with h
  · rw [List.getElem?_eq_getElem (lt_of_present h.2)]
    exact iff_of_true rfl h
  · exact iff_of_false Bool.false_ne_true h

@[simp] theorem lookup_empty (key : ℤ) : (DenseEntries.empty : DenseEntries ν).lookup key = none := by
  simp [DenseEntries.empty,lookup,empty]

theorem lookup_blank [Inhabited ν] (n : ℕ) (key : ℤ) : (blank n : DenseEntries ν).lookup key = none := by
  simp [blank,lookup,ofPresent]

theorem lookup_grow [Inhabited ν] (d : DenseEntries ν) (index : ℕ) (key : ℤ) : (d.grow index).lookup key = d.lookup key := by
  simp only [lookup,grow,grow_present]
  split_ifs with h hle
  · rw [resize_of_le (hle.trans (Nat.le_succ index)),List.getElem?_append_left (lt_of_present h.2)]
  · rfl
  · rfl

theorem lookup_put (d : DenseEntries ν) (h : index < d.present.length) (value : ν) (key : ℤ) :
    (d.put index value).lookup key = if key = index then some value else d.lookup key := by
  simp only [lookup,put,mark_present d.toDenseKeys h,List.getElem?_set]
  by_cases hkey : key = index
  · subst hkey
    rw [d.values_length]
    simp [h]
  · have hne (hpos : 0 ≤ key) : ¬index = key.toNat := by omega
    rw [if_neg hkey]
    by_cases hpos : 0 ≤ key
    · simp [hpos,hne hpos,Ne.symm (hne hpos)]
    · simp [hpos]

theorem lookup_modify (d : DenseEntries ν) (index : ℕ) (f : ν → ν) (key : ℤ) :
    (d.modify index f).lookup key = if key = index then (d.lookup key).map f else d.lookup key := by
  simp only [lookup,modify,List.getElem?_modify]
  by_cases h : 0 ≤ key ∧ d.present.getD key.toNat false = true
  · have hindex : index = key.toNat ↔ key = index := by omega
    simp only [if_pos h,hindex]
    split_ifs <;> simp
  · simp only [if_neg h,Option.map_none,ite_self]

theorem put_length (d : DenseEntries ν) (index : ℕ) (value : ν) : (d.put index value).present.length = d.present.length :=
  mark_length ..

theorem lookup_foldl_put {pairs : List (ℕ × ν)} (h : ∀ p ∈ pairs, p.1 < d.present.length) (key : ℤ) :
    (pairs.foldl (fun d p => d.put p.1 p.2) d).lookup key =
      (Map.lastFor (pairs.map fun p => ((p.1 : ℤ),p.2)) key).or (d.lookup key) := by
  induction pairs generalizing d with
  | nil => rfl
  | cons p pairs ih =>
    have hrest : ∀ q ∈ pairs, q.1 < (d.put p.1 p.2).present.length := fun q hq => by
      rw [put_length]
      exact h q (List.mem_cons_of_mem p hq)
    rw [List.foldl_cons,ih hrest,lookup_put d (h p List.mem_cons_self),List.map_cons,Map.lastFor,Option.or_assoc]
    congr 1
    by_cases hkey : key = p.1
    · simp [hkey]
    · simp [hkey,Ne.symm hkey]

end Lookup

/-- The present entries, filtered, in the order of their keys. -/
def pairs (d : DenseEntries ν) (keep : ν → Bool) : List (ℤ × ν) :=
  ((d.values.zip d.present).zipIdx).filterMap fun e => if e.1.2 && keep e.1.1 then some ((e.2 : ℤ),e.1.1) else none

theorem mem_pairs {d : DenseEntries ν} {keep : ν → Bool} {key : ℤ} {value : ν} :
    (key,value) ∈ d.pairs keep ↔ d.lookup key = some value ∧ keep value = true := by
  simp only [pairs,List.mem_filterMap,Option.ite_none_right_eq_some,Option.some.injEq,Prod.mk.injEq,Bool.and_eq_true,
    List.mem_zipIdx_iff_getElem?]
  constructor
  · rintro ⟨⟨⟨v,b⟩,i⟩,hget,⟨hb,hkeep⟩,rfl,rfl⟩
    rw [List.getElem?_zip_eq_some] at hget
    have hpresent : d.present.getD i false = true := by
      rw [List.getD_eq_getElem?_getD,hget.2]
      exact hb
    refine ⟨?_,hkeep⟩
    rw [lookup,if_pos ⟨Int.natCast_nonneg i,hpresent⟩]
    exact hget.1
  · rintro ⟨hlookup,hkeep⟩
    unfold lookup at hlookup
    split_ifs at hlookup with h
    have hpresent : d.present[key.toNat]? = some true := by
      have hget := h.2
      rw [List.getD_eq_getElem?_getD] at hget
      cases hflag : d.present[key.toNat]? with
      | none => simp [hflag] at hget
      | some b => simpa [hflag] using hget
    exact ⟨((value,true),key.toNat),List.getElem?_zip_eq_some.mpr ⟨hlookup,hpresent⟩,⟨rfl,hkeep⟩,Int.toNat_of_nonneg h.1,rfl⟩

theorem nodup_pairs (d : DenseEntries ν) (keep : ν → Bool) : ((d.pairs keep).map Prod.fst).Nodup := by
  have hindices : ((d.values.zip d.present).zipIdx).Pairwise fun a b => a.2 < b.2 := by
    rw [← List.pairwise_map (f := Prod.snd) (R := (· < ·)),List.zipIdx_map_snd]
    exact List.pairwise_lt_range'
  rw [List.Nodup,List.pairwise_map,pairs,List.pairwise_filterMap]
  apply hindices.imp
  intro a b hlt p hp q hq
  split_ifs at hp hq
  cases hp
  cases hq
  exact fun heq => absurd (Int.ofNat_inj.mp heq) hlt.ne

theorem lastFor_pairs (d : DenseEntries ν) (keep : ν → Bool) (key : ℤ) :
    Map.lastFor (d.pairs keep) key = (d.lookup key).filter keep := by
  ext value
  rw [Map.lastFor_eq_some (d.nodup_pairs keep),mem_pairs,Option.filter_eq_some_iff]

end DenseEntries

open DenseEntries

inductive AdaptiveI64Map (ν : Type*)
  | dense (entries : DenseEntries ν)
  | hash (entries : Map ℤ ν)

def defaultMaxDenseI64Key : ℕ := 20000000

namespace AdaptiveI64Map
variable {ν : Type*}

def newDense : AdaptiveI64Map ν := .dense .empty

/-- The map of a hash map, whose entries come in the order of its iteration. -/
def fromHash [Inhabited ν] (values : Map ℤ ν) : AdaptiveI64Map ν :=
  if values.toPairs.isEmpty then newDense
  else
    match values.toPairs.mapM fun p => (adaptiveDenseIndex p.1 defaultMaxDenseI64Key).map (·,p.2) with
    | none => .hash values
    | some pairs => .dense (pairs.foldl (fun d p => d.put p.1 p.2) (.blank (pairs.foldl (fun m p => max m p.1) 0 + 1)))

def get : AdaptiveI64Map ν → ℤ → Option ν
  | .dense d, key => if 0 ≤ key ∧ bitAt d.words key.toNat = true then d.values[key.toNat]? else none
  | .hash m, key => m.lookup key

def denseSlices : AdaptiveI64Map ν → Option (List ν × List Bool)
  | .dense d => some (d.values,d.present)
  | .hash _ => none

def denseWordSlices : AdaptiveI64Map ν → Option (List ν × List ℕ)
  | .dense d => some (d.values,d.words)
  | .hash _ => none

def getCached (m : AdaptiveI64Map ν) (slices : Option (List ν × List Bool)) (key : ℤ) : Option ν :=
  match slices with
  | some (values,present) => if 0 ≤ key ∧ present.getD key.toNat false = true then values[key.toNat]? else none
  | none => m.get key

def getCachedWords (m : AdaptiveI64Map ν) (slices : Option (List ν × List ℕ)) (key : ℤ) : Option ν :=
  match slices with
  | some (values,words) => if 0 ≤ key ∧ bitAt words key.toNat = true then values[key.toNat]? else none
  | none => m.get key

/-- `adaptive_i64_map_dense_to_hash` -/
def denseToHash (d : DenseEntries ν) : Map ℤ ν := Map.insertAll ∅ (d.pairs fun _ => true)

def insert [Inhabited ν] : AdaptiveI64Map ν → ℤ → ν → AdaptiveI64Map ν
  | .dense d, key, value =>
    match adaptiveDenseIndex key defaultMaxDenseI64Key with
    | none => .hash ((denseToHash d).insert key value)
    | some index => .dense ((d.grow index).put index value)
  | .hash m, key, value => .hash (m.insert key value)

/-- `entry(key).or_insert_with(init)` and the update of the entry. -/
def updateEntry (m : Map ℤ ν) (key : ℤ) (init : ν) (f : ν → ν) : Map ℤ ν := m.insert key (f ((m.lookup key).getD init))

def update [Inhabited ν] : AdaptiveI64Map ν → ℤ → ν → (ν → ν) → AdaptiveI64Map ν
  | .dense d, key, init, f =>
    match adaptiveDenseIndex key defaultMaxDenseI64Key with
    | none => .hash (updateEntry (denseToHash d) key init f)
    | some index =>
      if (d.grow index).present.getD index false then .dense ((d.grow index).modify index f)
      else .dense (((d.grow index).put index init).modify index f)
  | .hash m, key, init, f => .hash (updateEntry m key init f)

def intoFilteredHash : AdaptiveI64Map ν → (ν → Bool) → Map ℤ ν
  | .dense d, predicate => Map.insertAll ∅ (d.pairs predicate)
  | .hash m, predicate => Map.insertAll ∅ (m.toPairs.filter fun p => predicate p.2)

def lookup : AdaptiveI64Map ν → ℤ → Option ν
  | .dense d, key => d.lookup key
  | .hash m, key => m.lookup key

section Layouts
variable {key : ℤ}

theorem get_eq (m : AdaptiveI64Map ν) (key : ℤ) : m.get key = m.lookup key := by
  cases m with
  | dense d => simp only [get,lookup,DenseEntries.lookup,d.agree]
  | hash m => rfl

theorem getCached_eq (m : AdaptiveI64Map ν) (key : ℤ) : m.getCached m.denseSlices key = m.lookup key := by
  cases m with
  | dense d => rfl
  | hash m => rfl

theorem getCachedWords_eq (m : AdaptiveI64Map ν) (key : ℤ) : m.getCachedWords m.denseWordSlices key = m.lookup key := by
  cases m with
  | dense d => exact get_eq (.dense d) key
  | hash m => rfl

theorem lookup_denseToHash (d : DenseEntries ν) (key : ℤ) : (denseToHash d).lookup key = d.lookup key := by
  rw [denseToHash,Map.lookup_insertAll,lastFor_pairs,AList.lookup_empty,Option.or_none]
  cases d.lookup key <;> rfl

theorem lookup_updateEntry (m : Map ℤ ν) (key : ℤ) (init : ν) (f : ν → ν) (k : ℤ) :
    (updateEntry m key init f).lookup k = if k = key then some (f ((m.lookup key).getD init)) else m.lookup k := by
  unfold updateEntry
  split_ifs with h
  · rw [h,AList.lookup_insert]
  · rw [AList.lookup_insert_ne h]

theorem intoFilteredHash_lookup (m : AdaptiveI64Map ν) (predicate : ν → Bool) (key : ℤ) :
    (m.intoFilteredHash predicate).lookup key = (m.lookup key).filter predicate := by
  cases m with
  | dense d => rw [intoFilteredHash,Map.lookup_insertAll,lastFor_pairs,AList.lookup_empty,Option.or_none,lookup]
  | hash m =>
    rw [intoFilteredHash,Map.lookup_insertAll,AList.lookup_empty,Option.or_none,lookup]
    have hnodup : ((m.toPairs.filter fun p => predicate p.2).map Prod.fst).Nodup :=
      m.nodup_toPairs_fst.sublist (List.filter_sublist.map Prod.fst)
    ext value
    rw [Map.lastFor_eq_some hnodup,List.mem_filter,Map.mem_toPairs,Option.filter_eq_some_iff]

theorem mapM_indexed {pairs : List (ℤ × ν)} {indexed : List (ℕ × ν)}
    (h : pairs.mapM (fun p => (adaptiveDenseIndex p.1 defaultMaxDenseI64Key).map (·,p.2)) = some indexed) :
    pairs = indexed.map fun p => ((p.1 : ℤ),p.2) := by
  induction pairs generalizing indexed with
  | nil =>
    cases h
    rfl
  | cons p pairs ih =>
    simp only [List.mapM_cons,Option.bind_eq_bind,Option.bind_eq_some_iff,Option.map_eq_some_iff] at h
    obtain ⟨_,⟨index,hindex,rfl⟩,rest,hrest,hsome⟩ := h
    cases hsome
    rw [List.map_cons,← ih hrest]
    exact congrArg (· :: pairs) (Prod.ext (adaptiveDenseIndex_eq_some hindex).1 rfl)

variable [Inhabited ν]

theorem lookup_insert (m : AdaptiveI64Map ν) (key : ℤ) (value : ν) (k : ℤ) :
    (m.insert key value).lookup k = if k = key then some value else m.lookup k := by
  have hhash (m : Map ℤ ν) : (m.insert key value).lookup k = if k = key then some value else m.lookup k := by
    split_ifs with h
    · rw [h,AList.lookup_insert]
    · rw [AList.lookup_insert_ne h]
  cases m with
  | hash m => exact hhash m
  | dense d =>
    simp only [insert]
    split
    · exact (hhash _).trans (by rw [lookup_denseToHash]; rfl)
    · next index hindex =>
      rw [(adaptiveDenseIndex_eq_some hindex).1]
      exact (lookup_put _ (lt_grow ..) value k).trans (by rw [lookup_grow]; rfl)

theorem lookup_update (m : AdaptiveI64Map ν) (key : ℤ) (init : ν) (f : ν → ν) (k : ℤ) :
    (m.update key init f).lookup k = if k = key then some (f ((m.lookup key).getD init)) else m.lookup k := by
  cases m with
  | hash m => exact lookup_updateEntry m key init f k
  | dense d =>
    simp only [update]
    split
    · exact (lookup_updateEntry ..).trans (by rw [lookup_denseToHash,lookup_denseToHash]; rfl)
    · next index hindex =>
      obtain ⟨rfl,_⟩ := adaptiveDenseIndex_eq_some hindex
      have hlt : index < (d.grow index).present.length := lt_grow ..
      have hgrow : (d.grow index).lookup index = d.lookup index := d.lookup_grow index index
      split_ifs with hpresent hk hk
      · -- the key is present and its value is changed in place
        have hsome : ((d.grow index).lookup index).isSome :=
          lookup_isSome_iff.mpr (mem_toHash.mpr ⟨Int.natCast_nonneg index,hpresent⟩)
        obtain ⟨value,hvalue⟩ := Option.isSome_iff_exists.mp hsome
        rw [lookup,lookup_modify,if_pos hk,hk,hvalue,lookup,← hgrow,hvalue]
        rfl
      · rw [lookup,lookup_modify,if_neg hk,lookup_grow]
        rfl
      · -- the key is new
        have hnone : (d.grow index).lookup index = none := by
          rw [← Option.not_isSome_iff_eq_none,lookup_isSome_iff,mem_toHash]
          exact fun h => hpresent h.2
        rw [lookup,lookup_modify,if_pos hk,lookup_put _ hlt,if_pos hk,lookup,← hgrow,hnone]
        rfl
      · rw [lookup,lookup_modify,if_neg hk,lookup_put _ hlt,if_neg hk,lookup_grow]
        rfl

theorem lookup_fromHash (values : Map ℤ ν) (key : ℤ) : (fromHash values).lookup key = values.lookup key := by
  have hlast (key : ℤ) : Map.lastFor values.toPairs key = values.lookup key := by
    ext value
    rw [Map.lastFor_eq_some values.nodup_toPairs_fst,Map.mem_toPairs]
  unfold fromHash
  split_ifs with hempty
  · rw [← hlast,List.isEmpty_iff.mp hempty]
    exact lookup_empty key
  · split
    · rfl
    · next pairs hpairs =>
      have hlt : ∀ p ∈ pairs, p.1 < (blank (ν := ν) (pairs.foldl (fun m p => max m p.1) 0 + 1)).present.length := by
        intro p hp
        have hle := (AdaptiveI64Set.le_foldl_max (pairs.map Prod.fst) 0).2 p.1 (List.mem_map_of_mem hp)
        rw [List.foldl_map] at hle
        simpa [blank,ofPresent] using Nat.lt_succ_of_le hle
      rw [lookup,lookup_foldl_put hlt,lookup_blank,Option.or_none,← mapM_indexed hpairs,hlast]

theorem lookup_foldl_insert (m : AdaptiveI64Map ν) (pairs : List (ℤ × ν)) (key : ℤ) :
    (pairs.foldl (fun m p => m.insert p.1 p.2) m).lookup key = (Map.lastFor pairs key).or (m.lookup key) := by
  induction pairs generalizing m with
  | nil => rfl
  | cons p pairs ih =>
    rw [List.foldl_cons,ih,Map.lastFor,Option.or_assoc,lookup_insert]
    congr 1
    by_cases h : p.1 = key
    · simp [h]
    · simp [h,Ne.symm h]

end Layouts

def len : AdaptiveI64Map ν → ℕ
  | .dense d => d.len
  | .hash m => m.entries.length

def toMap : AdaptiveI64Map ν → Map ℤ ν
  | .dense d => denseToHash d
  | .hash m => m

theorem lookup_toMap (m : AdaptiveI64Map ν) (key : ℤ) : m.toMap.lookup key = m.lookup key := by
  cases m with
  | dense d => exact lookup_denseToHash d key
  | hash m => rfl

theorem len_eq (m : AdaptiveI64Map ν) : m.len = m.toMap.entries.length := by
  cases m with
  | hash m => rfl
  | dense d =>
    have hkeys : (denseToHash d).entries.length = (denseToHash d).keys.length := (List.length_map _).symm
    rw [len,← d.card_toHash,toMap,hkeys,← List.toFinset_card_of_nodup (denseToHash d).keys_nodup]
    congr 1
    ext key
    rw [List.mem_toFinset,← lookup_isSome_iff,← AList.mem_keys,← AList.lookup_isSome,lookup_denseToHash]

/-- The operations of a map; the last builds it again from its filtered entries. -/
inductive Operation (ν : Type*)
  | insert (key : ℤ) (value : ν)
  | update (key : ℤ) (init : ν) (f : ν → ν)
  | rebuild (predicate : ν → Bool)

section Runs
variable [Inhabited ν]

def apply (m : AdaptiveI64Map ν) : Operation ν → AdaptiveI64Map ν
  | .insert key value => m.insert key value
  | .update key init f => m.update key init f
  | .rebuild predicate => fromHash (m.intoFilteredHash predicate)

def Operation.onMap (m : Map ℤ ν) : Operation ν → Map ℤ ν
  | .insert key value => m.insert key value
  | .update key init f => m.insert key (f ((m.lookup key).getD init))
  | .rebuild predicate => Map.insertAll ∅ (m.toPairs.filter fun p => predicate p.2)

theorem lookup_apply {m : AdaptiveI64Map ν} {entries : Map ℤ ν} (h : ∀ key, m.lookup key = entries.lookup key)
    (operation : Operation ν) (key : ℤ) : (m.apply operation).lookup key = (operation.onMap entries).lookup key := by
  have hhash (operation : Operation ν) (key : ℤ) :
      ((AdaptiveI64Map.hash entries).apply operation).lookup key = (operation.onMap entries).lookup key := by
    cases operation with
    | insert k value => rfl
    | update k init f => rfl
    | rebuild predicate => exact lookup_fromHash _ key
  rw [← hhash operation key]
  cases operation with
  | insert k value => rw [apply,apply,lookup_insert,lookup_insert,h]; rfl
  | update k init f => rw [apply,apply,lookup_update,lookup_update,h,h]; rfl
  | rebuild predicate =>
    rw [apply,apply,lookup_fromHash,lookup_fromHash,intoFilteredHash_lookup,intoFilteredHash_lookup,h]
    rfl

theorem lookup_applyAll {m : AdaptiveI64Map ν} {entries : Map ℤ ν} (h : ∀ key, m.lookup key = entries.lookup key)
    (operations : List (Operation ν)) (key : ℤ) :
    (operations.foldl apply m).lookup key = (operations.foldl Operation.onMap entries).lookup key := by
  induction operations generalizing m entries with
  | nil => exact h key
  | cons operation operations ih => exact ih (lookup_apply h operation)

/-- From the entries of any hash map on, the lookups of either layout are those of the finite map, and the filtered
entries are those that the predicate keeps. -/
theorem applyAll_isMap (start : Map ℤ ν) (operations : List (Operation ν)) (key : ℤ) :
    (operations.foldl apply (fromHash start)).get key = (operations.foldl Operation.onMap start).lookup key ∧
      (operations.foldl apply (fromHash start)).getCached none key = (operations.foldl Operation.onMap start).lookup key ∧
      (operations.foldl apply (fromHash start)).getCached (operations.foldl apply (fromHash start)).denseSlices key =
        (operations.foldl Operation.onMap start).lookup key ∧
      (operations.foldl apply (fromHash start)).getCachedWords none key = (operations.foldl Operation.onMap start).lookup key ∧
      (operations.foldl apply (fromHash start)).getCachedWords (operations.foldl apply (fromHash start)).denseWordSlices key =
        (operations.foldl Operation.onMap start).lookup key ∧
      ∀ predicate, ((operations.foldl apply (fromHash start)).intoFilteredHash predicate).lookup key =
        ((operations.foldl Operation.onMap start).lookup key).filter predicate := by
  have hrun := lookup_applyAll (lookup_fromHash start) operations key
  refine ⟨?_,?_,?_,?_,?_,fun predicate => ?_⟩
  · rw [get_eq,hrun]
  · exact (get_eq _ key).trans hrun
  · rw [getCached_eq,hrun]
  · exact (get_eq _ key).trans hrun
  · rw [getCachedWords_eq,hrun]
  · rw [intoFilteredHash_lookup,hrun]

example : ([.insert 5 (7 : ℕ),.insert (-1) 2,.update 5 0 (· + 1)].foldl apply newDense).get 5 = some 8 := by decide

end Runs
end AdaptiveI64Map
end Dodam.Dense
