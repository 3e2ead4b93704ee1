import Dodam.Dense.AdaptiveMap
import Dodam.Dense.RankMap
import Dodam.Foundation.Machine

/-! # Dense maps with a sentinel

Values sit in a vector over a reserved range of keys, where the sentinel stands for an absent
key.
-/
namespace Dodam.Dense
open Foundation

structure DenseI64Map (ν : Type*) where
  dense : List ν
  baseKey : ℤ
  missing : ν
  fallback : Option (AdaptiveI64Map ν)

namespace DenseI64Map
variable {ν : Type*} [DecidableEq ν]

def new (missing : ν) : DenseI64Map ν := ⟨[],0,missing,none⟩

def get (m : DenseI64Map ν) (key : ℤ) : Option ν :=
  match m.fallback with
  | some fallback => fallback.get key
  | none =>
    (checkedSigned 64 (key - m.baseKey)).bind fun delta =>
      (keyIndex delta).bind fun index => (m.dense[index]?).filter (· ≠ m.missing)

/-- The entries that a reader of `dense_slice` finds. -/
def densePairs (m : DenseI64Map ν) : List (ℤ × ν) :=
  m.dense.zipIdx.filterMap fun e => if e.1 ≠ m.missing then some (m.baseKey + e.2,e.1) else none

def pairs (m : DenseI64Map ν) : List (ℤ × ν) :=
  match m.fallback with
  | some fallback => fallback.toMap.toPairs
  | none => m.densePairs

def len (m : DenseI64Map ν) : ℕ :=
  match m.fallback with
  | some fallback => fallback.len
  | none => m.dense.countP (· ≠ m.missing)

/-- The range that holds the reserved keys and the new ones. -/
def unitedRange (m : DenseI64Map ν) (minKey maxKey : ℤ) : Option (ℤ × ℤ) :=
  if m.dense.isEmpty then some (minKey,maxKey)
  else
    ((checkedSigned 64 (m.baseKey + m.dense.length)).bind fun value => checkedSigned 64 (value - 1)).map fun currentMax =>
      (min m.baseKey minKey,max currentMax maxKey)

def rangeWidth (newMin newMax : ℤ) : Option ℕ :=
  ((checkedSigned 64 (newMax - newMin)).bind fun width => checkedSigned 64 (width + 1)).bind keyIndex

/-- The values moved into a range of `width` keys from `newMin` on. -/
def widen (m : DenseI64Map ν) (newMin : ℤ) (width : ℕ) : DenseI64Map ν :=
  if m.dense.isEmpty then { m with baseKey := newMin, dense := resize m.dense width m.missing }
  else if newMin = m.baseKey then
    if m.dense.length < width then { m with dense := resize m.dense width m.missing } else m
  else
    let offset := (m.baseKey - newMin).toNat
    { m with
      baseKey := newMin
      dense := List.replicate offset m.missing ++ m.dense ++ List.replicate (width - offset - m.dense.length) m.missing }

def reserveDenseRange (m : DenseI64Map ν) (minKey maxKey : ℤ) (maxEntries : ℕ) : Bool × DenseI64Map ν :=
  if minKey < 0 ∨ maxKey < minKey then (false,m)
  else
    match m.unitedRange minKey maxKey with
    | none => (false,m)
    | some (newMin,newMax) =>
      match rangeWidth newMin newMax with
      | none => (false,m)
      | some width => if maxEntries < width then (false,m) else (true,m.widen newMin width)

def insertDenseKey (m : DenseI64Map ν) (key : ℤ) (value : ν) : DenseI64Map ν :=
  match (checkedSigned 64 (key - m.baseKey)).bind keyIndex with
  | none => m
  | some index => if index < m.dense.length then { m with dense := m.dense.set index value } else m

variable [Inhabited ν]

/-- An insert through `fallback_mut`. -/
def insertFallback (m : DenseI64Map ν) (key : ℤ) (value : ν) : DenseI64Map ν :=
  { m with fallback := m.fallback.map fun fallback => fallback.insert key value }

def convertToFallback (m : DenseI64Map ν) : DenseI64Map ν :=
  if m.fallback.isSome then m
  else { m with dense := [], fallback := some (m.densePairs.foldl (fun fallback p => fallback.insert p.1 p.2) .newDense) }

omit [Inhabited ν] in
/-- The map of the pairs; `within` is the policy on the range of keys and the number of pairs. -/
def fromPairsWithDenseRangePolicy (within : ℤ → ℤ → ℕ → Bool) (pairs : List (ℤ × ν)) (missing : ν) (maxEntries : ℕ) :
    DenseI64Map ν :=
  if pairs.isEmpty then new missing
  else if (pairs.all fun p => 0 ≤ p.1) && within (minKeyOf (pairs.map Prod.fst)) (maxKeyOf (pairs.map Prod.fst)) pairs.length &&
      ((new missing).reserveDenseRange (minKeyOf (pairs.map Prod.fst)) (maxKeyOf (pairs.map Prod.fst)) maxEntries).1 then
    pairs.foldl (fun m p => m.insertDenseKey p.1 p.2)
      ((new missing).reserveDenseRange (minKeyOf (pairs.map Prod.fst)) (maxKeyOf (pairs.map Prod.fst)) maxEntries).2
  else { new missing with fallback := some (.hash (Map.insertAll ∅ pairs)) }

def slot (m : DenseI64Map ν) (key : ℤ) : ν := if m.baseKey ≤ key then m.dense.getD (key - m.baseKey).toNat m.missing else m.missing

def lookup (m : DenseI64Map ν) (key : ℤ) : Option ν :=
  match m.fallback with
  | some fallback => fallback.lookup key
  | none => (some (m.slot key)).filter (· ≠ m.missing)

/-- The vector of values has a length in `i64`. -/
def Fits (m : DenseI64Map ν) : Prop := m.dense.length < 2 ^ 63

section Slots
omit [Inhabited ν]
variable {m : DenseI64Map ν}

omit [DecidableEq ν] in
theorem checkedIndex (base key : ℤ) :
    (checkedSigned 64 (key - base)).bind keyIndex =
      if base ≤ key ∧ key - base < 2 ^ 63 then some (key - base).toNat else none := by
  unfold checkedSigned keyIndex
  by_cases hle : base ≤ key
  · by_cases hlt : key - base < 2 ^ 63
    · rw [if_pos ⟨by omega,by omega⟩,if_pos ⟨hle,hlt⟩,Option.bind_some,if_pos (by omega)]
    · rw [if_neg (fun h => hlt h.2),if_neg (fun h => hlt h.2)]
      rfl
  · rw [if_neg (c := base ≤ key ∧ _) (fun h => hle h.1)]
    split_ifs
    · exact if_neg (by omega)
    · rfl

theorem filter_missing (missing : ν) : (some missing).filter (· ≠ missing) = none := by simp [Option.filter]

theorem filter_getElem? (values : List ν) (missing : ν) (index : ℕ) :
    (values[index]?).filter (· ≠ missing) = (some (values.getD index missing)).filter (· ≠ missing) := by
  rw [List.getD_eq_getElem?_getD]
  cases values[index]? with
  | none => exact (filter_missing missing).symm
  | some value => rfl

theorem get_eq (h : m.Fits) (key : ℤ) : m.get key = m.lookup key := by
  unfold get lookup
  cases m.fallback with
  | some fallback => exact fallback.get_eq key
  | none =>
    simp only
    rw [← Option.bind_assoc,checkedIndex,slot]
    split_ifs with hin hle hle
    · exact filter_getElem? ..
    · exact absurd hin.1 hle
    · -- the key lies behind every vector
      have hfits : m.dense.length < 2 ^ 63 := h
      have hlen : m.dense.length ≤ (key - m.baseKey).toNat := by
        have : ¬key - m.baseKey < 2 ^ 63 := fun hlt => hin ⟨hle,hlt⟩
        omega
      rw [List.getD_eq_default _ _ hlen]
      exact (filter_missing m.missing).symm
    · exact (filter_missing m.missing).symm

end Slots

section Shape
omit [DecidableEq ν] [Inhabited ν]
variable {m : DenseI64Map ν}

theorem getD_replicate_append (n k : ℕ) (values : List ν) (missing : ν) (i : ℕ) :
    (List.replicate n missing ++ values ++ List.replicate k missing).getD i missing =
      if n ≤ i then values.getD (i - n) missing else missing := by
  simp only [List.getD_eq_getElem?_getD,List.append_assoc,List.getElem?_append,List.length_replicate,List.getElem?_replicate]
  split_ifs <;> first | omega | simp_all

theorem slot_widen {newMin : ℤ} {width : ℕ} (hmin : m.dense = [] ∨ newMin ≤ m.baseKey) (key : ℤ) :
    (m.widen newMin width).slot key = m.slot key := by
  unfold widen
  split_ifs with hempty hbase hwidth
  · simp only [slot,List.isEmpty_iff.mp hempty]
    rw [getD_resize (Nat.zero_le _)]
    simp
  · simp only [slot]
    rw [getD_resize hwidth.le]
  · rfl
  · have hle : newMin ≤ m.baseKey := hmin.resolve_left fun h => hempty (by rw [h]; rfl)
    simp only [slot]
    rw [getD_replicate_append]
    split_ifs with h₁ h₂ h₃ h₃
    · congr 1
      omega
    · omega
    · omega
    · rfl
    · omega
    · rfl

theorem slot_set {index : ℕ} (h : index < m.dense.length) (value : ν) (key : ℤ) :
    ({ m with dense := m.dense.set index value } : DenseI64Map ν).slot key = if key = m.baseKey + index then value else m.slot key := by
  simp only [slot,List.getD_eq_getElem?_getD,List.getElem?_set]
  by_cases hkey : key = m.baseKey + index
  · have hindex : index = (key - m.baseKey).toNat := by omega
    rw [if_pos (by omega),if_pos hindex,if_pos h,if_pos hkey]
    rfl
  · by_cases hle : m.baseKey ≤ key
    · rw [if_pos hle,if_neg (by omega),if_neg hkey,if_pos hle]
    · rw [if_neg hle,if_neg hkey,if_neg hle]

theorem slot_insertDenseKey {key : ℤ} (h : m.Fits) (hkey : m.baseKey ≤ key ∧ key < m.baseKey + m.dense.length) (value : ν) (k : ℤ) :
    (m.insertDenseKey key value).slot k = if k = key then value else m.slot k := by
  have hfits : m.dense.length < 2 ^ 63 := h
  have hcast : ((key - m.baseKey).toNat : ℤ) = key - m.baseKey := Int.toNat_of_nonneg (by omega)
  have hsum : m.baseKey + (key - m.baseKey) = key := by omega
  simp only [insertDenseKey,checkedIndex]
  rw [if_pos ⟨hkey.1,by omega⟩]
  simp only
  rw [if_pos (by omega),slot_set (by omega),hcast,hsum]

theorem unitedRange_eq_some {minKey maxKey newMin newMax : ℤ} (h : m.unitedRange minKey maxKey = some (newMin,newMax)) :
    (newMin ≤ minKey ∧ maxKey ≤ newMax) ∧ (m.dense = [] ∨ newMin ≤ m.baseKey ∧ m.baseKey + m.dense.length ≤ newMax + 1) := by
  unfold unitedRange at h
  split_ifs at h with hempty
  · cases h
    exact ⟨⟨le_rfl,le_rfl⟩,.inl (List.isEmpty_iff.mp hempty)⟩
  · rw [Option.map_eq_some_iff] at h
    obtain ⟨currentMax,hmax,heq⟩ := h
    obtain ⟨value,hvalue,hcurrent⟩ := Option.bind_eq_some_iff.mp hmax
    obtain ⟨_,rfl⟩ := checkedSigned_eq_some.mp hvalue
    obtain ⟨_,rfl⟩ := checkedSigned_eq_some.mp hcurrent
    cases heq
    exact ⟨⟨min_le_right ..,le_max_right ..⟩,.inr ⟨min_le_left ..,by omega⟩⟩

theorem rangeWidth_eq_some {newMin newMax : ℤ} {width : ℕ} (h : rangeWidth newMin newMax = some width) :
    (width : ℤ) = newMax - newMin + 1 ∧ width < 2 ^ 63 := by
  obtain ⟨total,htotal,hindex⟩ := Option.bind_eq_some_iff.mp h
  obtain ⟨difference,hdifference,hchecked⟩ := Option.bind_eq_some_iff.mp htotal
  obtain ⟨_,rfl⟩ := checkedSigned_eq_some.mp hdifference
  obtain ⟨hin,rfl⟩ := checkedSigned_eq_some.mp hchecked
  have hwidth := keyIndex_eq_some.mp hindex
  have hlt := hin.2
  exact ⟨hwidth.symm,by omega⟩

theorem length_widen {newMin : ℤ} {width : ℕ}
    (h : m.dense = [] ∨ newMin ≤ m.baseKey ∧ m.baseKey + m.dense.length ≤ newMin + width) :
    (m.widen newMin width).dense.length = width ∧ (m.widen newMin width).baseKey = newMin := by
  unfold widen
  split_ifs with hempty hbase hwidth
  · exact ⟨length_resize ..,rfl⟩
  · exact ⟨length_resize ..,hbase.symm⟩
  · obtain hnil | ⟨_,hle⟩ := h
    · exact absurd (by rw [hnil]; rfl) hempty
    · exact ⟨by omega,hbase.symm⟩
  · obtain hnil | ⟨hmin,hle⟩ := h
    · exact absurd (by rw [hnil]; rfl) hempty
    · simp only [List.length_append,List.length_replicate]
      exact ⟨by omega,trivial⟩

/-- What a reserve does: it refuses and changes nothing, or it covers the new keys and keeps every slot. -/
theorem reserveDenseRange_cases (m : DenseI64Map ν) (minKey maxKey : ℤ) (maxEntries : ℕ) :
    m.reserveDenseRange minKey maxKey maxEntries = (false,m) ∨
      ∃ wide : DenseI64Map ν, m.reserveDenseRange minKey maxKey maxEntries = (true,wide) ∧ wide.Fits ∧
        (∀ key, wide.slot key = m.slot key) ∧ wide.missing = m.missing ∧ wide.fallback = m.fallback ∧
        wide.baseKey ≤ minKey ∧ maxKey < wide.baseKey + wide.dense.length := by
  unfold reserveDenseRange
  split_ifs with hkeys
  · exact .inl rfl
  · split
    · exact .inl rfl
    · next newMin newMax hunited =>
      split
      · exact .inl rfl
      · next width hwidth =>
        split_ifs with hmax
        · exact .inl rfl
        · obtain ⟨⟨hlow,hhigh⟩,hold⟩ := unitedRange_eq_some hunited
          obtain ⟨hcount,hlt⟩ := rangeWidth_eq_some hwidth
          have hcovers : m.dense = [] ∨ newMin ≤ m.baseKey ∧ m.baseKey + m.dense.length ≤ newMin + width :=
            hold.imp_right fun h => ⟨h.1,by omega⟩
          obtain ⟨hlength,hbase⟩ := length_widen hcovers
          refine .inr ⟨_,rfl,?_,slot_widen (hold.imp_right And.left),?_,?_,?_,?_⟩
          · exact hlength.trans_lt hlt
          · unfold widen
            split_ifs <;> rfl
          · unfold widen
            split_ifs <;> rfl
          · rw [hbase]
            exact hlow
          · rw [hbase,hlength]
            omega

end Shape

section Entries
omit [Inhabited ν]

theorem mem_densePairs {m : DenseI64Map ν} {key : ℤ} {value : ν} :
    (key,value) ∈ m.densePairs ↔ (some (m.slot key)).filter (· ≠ m.missing) = some value := by
  simp only [densePairs,List.mem_filterMap,Option.ite_none_right_eq_some,Option.some.injEq,Prod.mk.injEq,
    List.mem_zipIdx_iff_getElem?,Option.filter_eq_some_iff,decide_eq_true_eq]
  constructor
  · rintro ⟨⟨v,i⟩,hget,hne,rfl,rfl⟩
    have hindex : (m.baseKey + i - m.baseKey).toNat = i := by omega
    refine ⟨?_,hne⟩
    rw [slot,if_pos (by omega),hindex,List.getD_eq_getElem?_getD,hget]
    rfl
  · rintro ⟨rfl,hne⟩
    unfold slot at hne ⊢
    split_ifs at hne ⊢ with hle
    · have hcast : m.baseKey + ((key - m.baseKey).toNat : ℤ) = key := by omega
      rw [List.getD_eq_getElem?_getD] at hne ⊢
      cases hget : m.dense[(key - m.baseKey).toNat]? with
      | none => exact absurd (by rw [hget]; rfl) hne
      | some v =>
        rw [hget] at hne
        exact ⟨(v,_),hget,hne,hcast,rfl⟩
    · exact absurd rfl hne

theorem nodup_densePairs (m : DenseI64Map ν) : (m.densePairs.map Prod.fst).Nodup := by
  have hindices : m.dense.zipIdx.Pairwise fun a b => a.2 < b.2 := by
    rw [← List.pairwise_map (f := Prod.snd) (R := (· < ·)),List.zipIdx_map_snd]
    exact List.pairwise_lt_range'
  rw [List.Nodup,List.pairwise_map,densePairs,List.pairwise_filterMap]
  apply hindices.imp
  intro a b hlt p hp q hq
  split_ifs at hp hq
  cases hp
  cases hq
  exact fun heq => absurd (by omega) hlt.ne

theorem lastFor_densePairs (m : DenseI64Map ν) (key : ℤ) :
    Map.lastFor m.densePairs key = (some (m.slot key)).filter (· ≠ m.missing) := by
  ext value
  rw [Map.lastFor_eq_some m.nodup_densePairs,mem_densePairs]

theorem mem_pairs {m : DenseI64Map ν} {key : ℤ} {value : ν} : (key,value) ∈ m.pairs ↔ m.lookup key = some value := by
  unfold pairs lookup
  cases m.fallback with
  | some fallback => exact Map.mem_toPairs.trans (by rw [fallback.lookup_toMap])
  | none => exact mem_densePairs

theorem nodup_pairs (m : DenseI64Map ν) : (m.pairs.map Prod.fst).Nodup := by
  unfold pairs
  cases m.fallback with
  | some fallback => exact fallback.toMap.nodup_toPairs_fst
  | none => exact m.nodup_densePairs

theorem len_eq (m : DenseI64Map ν) : m.len = m.pairs.length := by
  unfold len pairs
  cases m.fallback with
  | some fallback => exact fallback.len_eq.trans fallback.toMap.length_toPairs.symm
  | none =>
    have hslots (values : List ν) (start : ℕ) :
        values.countP (· ≠ m.missing) =
          ((values.zipIdx start).filterMap fun e => if e.1 ≠ m.missing then some (m.baseKey + e.2,e.1) else none).length := by
      induction values generalizing start with
      | nil => rfl
      | cons v values ih =>
        rw [List.countP_cons,List.zipIdx_cons,List.filterMap_cons,ih (start + 1)]
        by_cases hv : v = m.missing
        · simp [hv]
        · simp [hv]
    exact hslots m.dense 0

theorem pairs_perm {m : DenseI64Map ν} {entries : Map ℤ ν} (h : ∀ key, m.lookup key = entries.lookup key) :
    m.pairs.Perm entries.toPairs := by
  rw [List.perm_ext_iff_of_nodup m.nodup_pairs.of_map entries.nodup_toPairs_fst.of_map]
  rintro ⟨key,value⟩
  rw [mem_pairs,Map.mem_toPairs,h]

end Entries

inductive Operation (ν : Type*)
  | reserveDenseRange (minKey maxKey : ℤ) (maxEntries : ℕ)
  | insertDenseKey (key : ℤ) (value : ν)
  | insertFallback (key : ℤ) (value : ν)
  | convertToFallback

def Operation.inserted : Operation ν → List (ℤ × ν)
  | .insertDenseKey key value => [(key,value)]
  | .insertFallback key value => [(key,value)]
  | _ => []

def apply (m : DenseI64Map ν) : Operation ν → DenseI64Map ν
  | .reserveDenseRange minKey maxKey maxEntries => (m.reserveDenseRange minKey maxKey maxEntries).2
  | .insertDenseKey key value => m.insertDenseKey key value
  | .insertFallback key value => m.insertFallback key value
  | .convertToFallback => m.convertToFallback

/-- The use an insert is meant for: before the conversion, a value other than the sentinel at a reserved key; after
it, an insert into the fallback. -/
def Takes (m : DenseI64Map ν) : Operation ν → Prop
  | .insertDenseKey key value =>
    m.fallback.isNone ∧ m.baseKey ≤ key ∧ key < m.baseKey + m.dense.length ∧ value ≠ m.missing
  | .insertFallback _ _ => m.fallback.isSome
  | _ => True

/-- Every operation of the run is used as it is meant to be. -/
def TakesAll (m : DenseI64Map ν) : List (Operation ν) → Prop
  | [] => True
  | operation :: operations => m.Takes operation ∧ (m.apply operation).TakesAll operations

instance (m : DenseI64Map ν) (operation : Operation ν) : Decidable (m.Takes operation) := by
  cases operation <;> unfold Takes <;> infer_instance

instance : (m : DenseI64Map ν) → (operations : List (Operation ν)) → Decidable (m.TakesAll operations)
  | _, [] => isTrue trivial
  | m, operation :: operations =>
    have : Decidable ((m.apply operation).TakesAll operations) := instDecidableTakesAll (m.apply operation) operations
    inferInstanceAs (Decidable (m.Takes operation ∧ (m.apply operation).TakesAll operations))

section Runs
variable {m : DenseI64Map ν}

omit [Inhabited ν] in
theorem lookup_of_slot {m' : DenseI64Map ν} {key : ℤ} (hfallback : m'.fallback = m.fallback) (hmissing : m'.missing = m.missing)
    (hslot : m'.slot key = m.slot key) : m'.lookup key = m.lookup key := by
  rw [lookup,lookup,hfallback,hmissing,hslot]

omit [DecidableEq ν] [Inhabited ν] in
theorem fits_insertDenseKey (h : m.Fits) (key : ℤ) (value : ν) : (m.insertDenseKey key value).Fits := by
  unfold insertDenseKey
  split
  · exact h
  · split_ifs
    · simpa [Fits] using h
    · exact h

theorem fits_apply (h : m.Fits) (operation : Operation ν) : (m.apply operation).Fits := by
  cases operation with
  | reserveDenseRange minKey maxKey maxEntries =>
    obtain hrefused | ⟨wide,hwide,hfits,_⟩ := m.reserveDenseRange_cases minKey maxKey maxEntries
    · rw [apply,hrefused]
      exact h
    · rw [apply,hwide]
      exact hfits
  | insertDenseKey key value => exact fits_insertDenseKey h key value
  | insertFallback key value => exact h
  | convertToFallback =>
    simp only [apply,convertToFallback]
    split_ifs
    · exact h
    · exact Nat.two_pow_pos 63

/-- An operation changes the lookups by the entries that it inserts. -/
theorem lookup_apply (h : m.Fits) {operation : Operation ν} (htakes : m.Takes operation) (k : ℤ) :
    (m.apply operation).lookup k = (Map.lastFor operation.inserted k).or (m.lookup k) := by
  cases operation with
  | reserveDenseRange minKey maxKey maxEntries =>
    obtain hrefused | ⟨wide,hwide,_,hslots,hmissing,hfallback,_⟩ := m.reserveDenseRange_cases minKey maxKey maxEntries
    · rw [apply,hrefused]
      rfl
    · rw [apply,hwide]
      exact lookup_of_slot hfallback hmissing (hslots k)
  | insertDenseKey key value =>
    obtain ⟨hnone,hlow,hhigh,hvalue⟩ := htakes
    have hslot := slot_insertDenseKey h ⟨hlow,hhigh⟩ value k
    have hkeeps : (m.insertDenseKey key value).fallback = m.fallback ∧ (m.insertDenseKey key value).missing = m.missing := by
      unfold insertDenseKey
      split
      · exact ⟨rfl,rfl⟩
      · split_ifs <;> exact ⟨rfl,rfl⟩
    simp only [apply,lookup,hkeeps.1,hkeeps.2,Option.isNone_iff_eq_none.mp hnone,hslot,Operation.inserted,Map.lastFor]
    by_cases hk : k = key
    · simp [hk,hvalue,Option.filter]
    · simp [hk,Ne.symm hk]
  | insertFallback key value =>
    obtain ⟨fallback,hfallback⟩ := Option.isSome_iff_exists.mp htakes
    simp only [apply,insertFallback,lookup,hfallback,Option.map_some,AdaptiveI64Map.lookup_insert,Operation.inserted,Map.lastFor]
    by_cases hk : k = key
    · simp [hk]
    · simp [hk,Ne.symm hk]
  | convertToFallback =>
    simp only [apply,convertToFallback]
    split_ifs with hsome
    · rfl
    · have hnone : m.fallback = none := Option.not_isSome_iff_eq_none.mp hsome
      simp only [lookup,hnone,AdaptiveI64Map.lookup_foldl_insert,lastFor_densePairs,Operation.inserted,Map.lastFor,Option.none_or]
      exact (congrArg _ (DenseEntries.lookup_empty k)).trans (Option.or_none ..)

theorem lookup_applyAll (h : m.Fits) {operations : List (Operation ν)} (htakes : m.TakesAll operations) (k : ℤ) :
    (operations.foldl apply m).lookup k = (Map.lastFor (operations.flatMap Operation.inserted) k).or (m.lookup k) := by
  induction operations generalizing m with
  | nil => rfl
  | cons operation operations ih =>
    rw [List.foldl_cons,ih (fits_apply h operation) htakes.2,lookup_apply h htakes.1,List.flatMap_cons,Map.lastFor_append,Option.or_assoc]

theorem fits_applyAll (h : m.Fits) (operations : List (Operation ν)) : (operations.foldl apply m).Fits := by
  induction operations generalizing m with
  | nil => exact h
  | cons operation operations ih => exact ih (fits_apply h operation)

omit [DecidableEq ν] [Inhabited ν] in
theorem insertDenseKey_keeps (m : DenseI64Map ν) (key : ℤ) (value : ν) :
    (m.insertDenseKey key value).fallback = m.fallback ∧ (m.insertDenseKey key value).missing = m.missing ∧
      (m.insertDenseKey key value).baseKey = m.baseKey ∧ (m.insertDenseKey key value).dense.length = m.dense.length := by
  unfold insertDenseKey
  split
  · exact ⟨rfl,rfl,rfl,rfl⟩
  · split_ifs
    · exact ⟨rfl,rfl,rfl,List.length_set ..⟩
    · exact ⟨rfl,rfl,rfl,rfl⟩

theorem takesAll_insertDenseKey {pairs : List (ℤ × ν)} (hnone : m.fallback.isNone)
    (hkeys : ∀ p ∈ pairs, m.baseKey ≤ p.1 ∧ p.1 < m.baseKey + m.dense.length) (hvalues : ∀ p ∈ pairs, p.2 ≠ m.missing) :
    m.TakesAll (pairs.map fun p => .insertDenseKey p.1 p.2) := by
  induction pairs generalizing m with
  | nil => trivial
  | cons p pairs ih =>
    obtain ⟨hlow,hhigh⟩ := hkeys p List.mem_cons_self
    obtain ⟨hfallback,hmissing,hbase,hlength⟩ := m.insertDenseKey_keeps p.1 p.2
    refine ⟨⟨hnone,hlow,hhigh,hvalues p List.mem_cons_self⟩,ih (hfallback ▸ hnone) ?_ ?_⟩
    · intro q hq
      rw [apply,hbase,hlength]
      exact hkeys q (List.mem_cons_of_mem p hq)
    · intro q hq
      rw [apply,hmissing]
      exact hvalues q (List.mem_cons_of_mem p hq)

/-- The bulk construction holds the last value of every key. -/
theorem lookup_fromPairs {within : ℤ → ℤ → ℕ → Bool} {pairs : List (ℤ × ν)} {missing : ν} {maxEntries : ℕ}
    (hvalues : (fromPairsWithDenseRangePolicy within pairs missing maxEntries).fallback.isNone → ∀ p ∈ pairs, p.2 ≠ missing) (k : ℤ) :
    (fromPairsWithDenseRangePolicy within pairs missing maxEntries).Fits ∧
      (fromPairsWithDenseRangePolicy within pairs missing maxEntries).lookup k = Map.lastFor pairs k := by
  have hnew : (new missing).Fits := Nat.two_pow_pos 63
  have hempty (k : ℤ) : (new missing).lookup k = none := by simp [new,lookup,slot,Option.filter]
  unfold fromPairsWithDenseRangePolicy at hvalues ⊢
  split_ifs at hvalues ⊢ with hnil hdense
  · rw [List.isEmpty_iff.mp hnil]
    exact ⟨hnew,hempty k⟩
  · obtain hrefused | ⟨wide,hwide,hfits,hslots,hmissing,hfallback,hlow,hhigh⟩ :=
      (new missing).reserveDenseRange_cases (minKeyOf (pairs.map Prod.fst)) (maxKeyOf (pairs.map Prod.fst)) maxEntries
    · simp [hrefused] at hdense
    · rw [hwide] at hvalues ⊢
      have hne : pairs.map Prod.fst ≠ [] := fun h => hnil (List.isEmpty_iff.mpr (List.map_eq_nil_iff.mp h))
      have hkeys : ∀ p ∈ pairs, wide.baseKey ≤ p.1 ∧ p.1 < wide.baseKey + wide.dense.length := fun p hp =>
        ⟨hlow.trans ((minKeyOf_spec hne).2 p.1 (List.mem_map_of_mem hp)),(le_maxKeyOf (List.mem_map_of_mem hp)).trans_lt hhigh⟩
      have hfold : pairs.foldl (fun m p => m.insertDenseKey p.1 p.2) wide =
          (pairs.map fun p => Operation.insertDenseKey p.1 p.2).foldl apply wide := by
        rw [List.foldl_map]
        rfl
      have hlayout (pairs : List (ℤ × ν)) (m : DenseI64Map ν) :
          (pairs.foldl (fun m p => m.insertDenseKey p.1 p.2) m).fallback = m.fallback := by
        induction pairs generalizing m with
        | nil => rfl
        | cons p pairs ih => exact (ih _).trans (m.insertDenseKey_keeps p.1 p.2).1
      have hnone : wide.fallback.isNone := by
        rw [hfallback]
        rfl
      have hmarked : ∀ p ∈ pairs, p.2 ≠ wide.missing := fun p hp => by
        rw [hmissing]
        exact hvalues (by rw [hlayout]; exact hnone) p hp
      have hinserted : (pairs.map fun p => Operation.insertDenseKey p.1 p.2).flatMap Operation.inserted = pairs := by
        rw [List.flatMap_map]
        exact List.flatMap_singleton' pairs
      rw [hfold]
      refine ⟨fits_applyAll hfits _,?_⟩
      rw [lookup_applyAll hfits (takesAll_insertDenseKey hnone hkeys hmarked),hinserted,lookup_of_slot hfallback hmissing (hslots k),
        hempty,Option.or_none]
  · refine ⟨hnew,?_⟩
    exact (Map.lookup_insertAll ∅ pairs k).trans (by rw [AList.lookup_empty,Option.or_none])

/-- Runs of intended operations are the finite map of their inserts in every layout, and a refused reserve changes
nothing. -/
theorem applyAll_keepsMap {within : ℤ → ℤ → ℕ → Bool} {pairs : List (ℤ × ν)} {missing : ν} {maxEntries : ℕ} {operations : List (Operation ν)}
    (hvalues : (fromPairsWithDenseRangePolicy within pairs missing maxEntries).fallback.isNone → ∀ p ∈ pairs, p.2 ≠ missing)
    (htakes : (fromPairsWithDenseRangePolicy within pairs missing maxEntries).TakesAll operations) :
    (∀ key, (operations.foldl apply (fromPairsWithDenseRangePolicy within pairs missing maxEntries)).get key =
        (Map.insertAll ∅ (pairs ++ operations.flatMap Operation.inserted)).lookup key) ∧
      (operations.foldl apply (fromPairsWithDenseRangePolicy within pairs missing maxEntries)).len =
        (Map.insertAll ∅ (pairs ++ operations.flatMap Operation.inserted)).toPairs.length ∧
      (operations.foldl apply (fromPairsWithDenseRangePolicy within pairs missing maxEntries)).pairs.Perm
        (Map.insertAll ∅ (pairs ++ operations.flatMap Operation.inserted)).toPairs ∧
      ∀ (m : DenseI64Map ν) (minKey maxKey : ℤ) (maxEntries : ℕ),
        (m.reserveDenseRange minKey maxKey maxEntries).1 = false → (m.reserveDenseRange minKey maxKey maxEntries).2 = m := by
  have hfits := (lookup_fromPairs hvalues 0).1
  have hlookup (key : ℤ) : (operations.foldl apply (fromPairsWithDenseRangePolicy within pairs missing maxEntries)).lookup key =
      (Map.insertAll ∅ (pairs ++ operations.flatMap Operation.inserted)).lookup key := by
    rw [lookup_applyAll hfits htakes,(lookup_fromPairs hvalues key).2,Map.lookup_insertAll,Map.lastFor_append,AList.lookup_empty,
      Option.or_none]
  have hperm := pairs_perm hlookup
  refine ⟨fun key => ?_,?_,hperm,fun m minKey maxKey maxEntries hrefused => ?_⟩
  · rw [get_eq (fits_applyAll hfits operations),hlookup]
  · rw [len_eq,hperm.length_eq]
  · obtain hsame | ⟨wide,hwide,_⟩ := m.reserveDenseRange_cases minKey maxKey maxEntries
    · rw [hsame]
    · rw [hwide] at hrefused
      cases hrefused

theorem applyAll_keepsMap_sample :
    (([.reserveDenseRange 2 3 8,.insertDenseKey 2 5,.reserveDenseRange 0 4 8,.insertDenseKey 4 6,.convertToFallback,
        .insertFallback 4 0] : List (Operation ℕ)).foldl apply (fromPairsWithDenseRangePolicy (fun _ _ _ => true) [(3,7)] 0 8)).get 4 =
      (Map.insertAll ∅ [(3,7),(2,5),(4,6),(4,0)]).lookup 4 :=
  (@applyAll_keepsMap ℕ _ _ (fun _ _ _ => true) _ _ _ _ (by decide) (by decide)).1 4

/-- The sentinel inserted densely, a dense insert outside the reserved range and one after the conversion are lost. -/
theorem applyAll_loses :
    (([.reserveDenseRange 0 0 1,.insertDenseKey 0 0] : List (Operation ℕ)).foldl apply (new 0)).get 0 ≠
        (Map.insertAll ∅ [(0,0)] : Map ℤ ℕ).lookup 0 ∧
      (([.reserveDenseRange 0 0 1,.insertDenseKey 1 7] : List (Operation ℕ)).foldl apply (new 0)).get 1 ≠
        (Map.insertAll ∅ [(1,7)] : Map ℤ ℕ).lookup 1 ∧
      (([.reserveDenseRange 0 0 1,.convertToFallback,.insertDenseKey 0 7] : List (Operation ℕ)).foldl apply (new 0)).get 0 ≠
        (Map.insertAll ∅ [(0,7)] : Map ℤ ℕ).lookup 0 := by
  decide

end Runs

end DenseI64Map
end Dodam.Dense
