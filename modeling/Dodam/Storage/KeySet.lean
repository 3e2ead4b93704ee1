import Dodam.Execution.HashJoin.Layout
import Dodam.Foundation.Fold

/-! # Key sets as row filters

A set of `i64` keys filters a column either exactly, by a bit vector when all
keys are small or by the set itself, or by a Bloom filter with the range of the
keys. NULL never passes.
-/
namespace Dodam.Storage
open Foundation Execution

inductive I64SetPredicate where
  | dense (values : List Bool)
  | hash (keys : List ℤ)

namespace I64SetPredicate

def maxDenseKey : ℕ := 20000000

def denseKey (maxKey : ℕ) (key : ℤ) : Option ℕ :=
  if key < 0 then none
  else if maxDenseKey < key.toNat then none
  else some (max maxKey key.toNat)

/-- The largest key, when all keys are indices of a bit vector. -/
def denseMaxKey (keys : List ℤ) : Option ℕ := keys.foldlM denseKey 0

def fromHashSet (keys : List ℤ) : I64SetPredicate :=
  match denseMaxKey keys with
  | none => hash keys
  | some maxKey => dense (keys.foldl (fun dense key => dense.set key.toNat true)
      (List.replicate (maxKey + 1) false))

def contains : I64SetPredicate → ℤ → Bool
  | dense values, key => if key < 0 then false else values.getD key.toNat false
  | hash keys, key => key ∈ keys

end I64SetPredicate

structure I64BloomPredicate where
  filter : BloomFilter
  minKey : ℤ
  maxKey : ℤ

namespace I64BloomPredicate

def splitmix64 (value : BitVec 64) : BitVec 64 :=
  let value := value + 0x9e3779b97f4a7c15#64
  let value := (value ^^^ (value >>> 30)) * 0xbf58476d1ce4e5b9#64
  let value := (value ^^^ (value >>> 27)) * 0x94d049bb133111eb#64
  value ^^^ (value >>> 31)

def i64BloomHashes (key : ℤ) : List ℕ :=
  let hash := splitmix64 (BitVec.ofInt 64 key)
  [hash.toNat,
   (splitmix64 (hash ^^^ 0x9e3779b97f4a7c15#64)).toNat,
   (splitmix64 (hash ^^^ 0xc2b2ae3d27d4eb4f#64)).toNat]

def new (expectedRows : ℕ) : I64BloomPredicate :=
  -- the next power of two wraps to 0 past the last one
  let bitCount := max ((min (max expectedRows 1 * 64) (maxUnsigned 64)).nextPowerOfTwo % 2 ^ 64) 64
  { filter := { bits := List.replicate ((bitCount + 63) / 64) 0, mask := bitCount - 1 }
    minKey := 2 ^ 63 - 1
    maxKey := -2 ^ 63 }

def insert (bloom : I64BloomPredicate) (key : ℤ) : I64BloomPredicate :=
  { filter := (i64BloomHashes key).foldl BloomFilter.set bloom.filter
    minKey := min bloom.minKey key
    maxKey := max bloom.maxKey key }

def fromHashSet (keys : List ℤ) : I64BloomPredicate :=
  keys.foldl insert (new keys.length)

def mightContain (bloom : I64BloomPredicate) (key : ℤ) : Bool :=
  bloom.minKey ≤ key ∧ key ≤ bloom.maxKey ∧ (i64BloomHashes key).all bloom.filter.get

end I64BloomPredicate

/-- The mask of a column: a column without NULLs is tested value by value. -/
def evaluateKeys (accepts : ℤ → Bool) (values : List (Option ℤ)) : List Bool :=
  if values.all Option.isSome then values.map fun value => accepts (value.getD 0)
  else values.map fun value => value.isSome && accepts (value.getD 0)

def passesKeys (accepts : ℤ → Bool) (value : Option ℤ) : Bool := value.any accepts

theorem evaluateKeys_eq (accepts : ℤ → Bool) (values : List (Option ℤ)) :
    evaluateKeys accepts values = values.map (passesKeys accepts) := by
  unfold evaluateKeys
  split_ifs with hall
  · refine List.map_congr_left fun value hvalue => ?_
    obtain ⟨key,rfl⟩ := Option.isSome_iff_exists.mp (List.all_eq_true.mp hall value hvalue)
    rfl
  · refine List.map_congr_left fun value _ => ?_
    cases value <;> rfl

namespace I64SetPredicate

theorem denseKey_eq_some {maxKey next : ℕ} {key : ℤ} (h : denseKey maxKey key = some next) :
    0 ≤ key ∧ next = max maxKey key.toNat := by
  unfold denseKey at h
  split_ifs at h with hneg hbig
  exact ⟨not_lt.mp hneg,(Option.some.inj h).symm⟩

theorem foldlM_denseKey {keys : List ℤ} {start maxKey : ℕ} (h : keys.foldlM denseKey start = some maxKey) :
    start ≤ maxKey ∧ ∀ key ∈ keys, 0 ≤ key ∧ key.toNat ≤ maxKey := by
  induction keys generalizing start with
  | nil =>
    cases h
    exact ⟨le_rfl,by simp⟩
  | cons key keys ih =>
    rw [List.foldlM_cons] at h
    obtain ⟨next,hnext,h⟩ := Option.bind_eq_some_iff.mp h
    obtain ⟨hkey,rfl⟩ := denseKey_eq_some hnext
    obtain ⟨hle,hkeys⟩ := ih h
    exact ⟨(le_max_left _ _).trans hle,
      List.forall_mem_cons.mpr ⟨⟨hkey,(le_max_right _ _).trans hle⟩,hkeys⟩⟩

theorem getElem?_foldl_set {keys : List ℤ} {dense : List Bool} {i : ℕ}
    (hkeys : ∀ key ∈ keys, key.toNat < dense.length) :
    (keys.foldl (fun dense key => dense.set key.toNat true) dense)[i]? = some true ↔
      (∃ key ∈ keys, key.toNat = i) ∨ dense[i]? = some true := by
  induction keys generalizing dense with
  | nil => simp
  | cons key keys ih =>
    rw [List.forall_mem_cons] at hkeys
    rw [List.foldl_cons,ih (by simpa using hkeys.2),List.getElem?_set]
    by_cases hkey : key.toNat = i
    · subst hkey
      simp [hkeys.1]
    · simp [hkey]

theorem getD_false_eq_true {values : List Bool} {i : ℕ} :
    values.getD i false = true ↔ values[i]? = some true := by
  rw [List.getD_eq_getElem?_getD]
  cases values[i]? with
  | none => simp
  | some value => simp

theorem contains_fromHashSet (keys : List ℤ) (key : ℤ) :
    (fromHashSet keys).contains key = true ↔ key ∈ keys := by
  unfold fromHashSet
  cases h : denseMaxKey keys with
  | none => exact decide_eq_true_iff
  | some maxKey =>
    obtain ⟨-,hkeys⟩ := foldlM_denseKey h
    have hlength : ∀ key ∈ keys, key.toNat < (List.replicate (maxKey + 1) false).length := fun key hkey => by
      rw [List.length_replicate]
      exact Nat.lt_succ_of_le (hkeys key hkey).2
    have hfalse : (List.replicate (maxKey + 1) false)[key.toNat]? ≠ some true := fun hget => by
      cases List.eq_of_mem_replicate (List.mem_of_getElem? hget)
    unfold contains
    dsimp only
    split_ifs with hneg
    · exact iff_of_false (by simp) fun hmem => absurd (hkeys key hmem).1 (not_le.mpr hneg)
    · rw [getD_false_eq_true,getElem?_foldl_set hlength,or_iff_left hfalse]
      constructor
      · rintro ⟨k,hk,he⟩
        have hsame : k = key := by
          rw [← Int.toNat_of_nonneg (hkeys k hk).1,he,Int.toNat_of_nonneg (not_lt.mp hneg)]
        exact hsame ▸ hk
      · intro hmem
        exact ⟨key,hmem,rfl⟩

end I64SetPredicate

namespace I64BloomPredicate

structure Answers (bloom : I64BloomPredicate) (keys : List ℤ) : Prop where
  valid : bloom.filter.Valid
  might : ∀ key ∈ keys, bloom.mightContain key = true

theorem valid_new (expectedRows : ℕ) : (new expectedRows).filter.Valid := by
  unfold BloomFilter.Valid new
  dsimp only
  rw [List.length_replicate]
  omega

theorem Answers.insert {bloom : I64BloomPredicate} {keys : List ℤ} (h : bloom.Answers keys) (key : ℤ) :
    (bloom.insert key).Answers (keys ++ [key]) := by
  refine ⟨h.valid.foldl_set _,?_⟩
  intro k hk
  unfold mightContain I64BloomPredicate.insert
  simp only [decide_eq_true_iff]
  rcases List.mem_append.mp hk with hk | hk
  · have hmight := of_decide_eq_true (h.might k hk)
    exact ⟨(min_le_left _ _).trans hmight.1,hmight.2.1.trans (le_max_left _ _),List.all_eq_true.mpr fun hash hm =>
      BloomFilter.get_foldl_set (List.all_eq_true.mp hmight.2.2 hash hm) _⟩
  · rw [List.mem_singleton.mp hk]
    exact ⟨min_le_right _ _,le_max_right _ _,List.all_eq_true.mpr fun hash hm =>
      BloomFilter.get_foldl_set_mem h.valid hm⟩

theorem mightContain_fromHashSet {keys : List ℤ} {key : ℤ} (h : key ∈ keys) :
    (fromHashSet keys).mightContain key = true := by
  have hanswers : (fromHashSet keys).Answers keys :=
    foldl_inv (fun seen (bloom : I64BloomPredicate) => bloom.Answers seen) ⟨valid_new _,by simp⟩
      fun seen k rest bloom _ hb => hb.insert k
  exact hanswers.might key h

end I64BloomPredicate

/-- The Bloom filter misses no key of its set, and the exact predicate is the set in both of its forms. -/
theorem keyPredicates_accept (keys : List ℤ) :
    (∀ key, key ∈ keys → (I64BloomPredicate.fromHashSet keys).mightContain key = true) ∧
      ∀ key, (I64SetPredicate.fromHashSet keys).contains key = true ↔ key ∈ keys :=
  ⟨fun _ => I64BloomPredicate.mightContain_fromHashSet,I64SetPredicate.contains_fromHashSet keys⟩

end Dodam.Storage
