import Dodam.Dense.DenseMap
import Mathlib.Data.Finset.Max

/-! # Key ranges of the dense structures

Each structure reports the range of its keys when the range is narrow enough to prune with; a row
group outside of the range holds none of the keys.
-/
namespace Dodam.Dense
open Foundation

section Ranges

def selectiveI64Range (minKey maxKey : ℤ) (len : ℕ) : Option (ℤ × ℤ) :=
  if len = 0 ∨ minKey < 0 ∨ maxKey < minKey then none
  else (DenseI64Map.rangeWidth minKey maxKey).bind fun width =>
    if width ≤ max (min (len * 8) (2 ^ 64 - 1)) 1024 then some (minKey,maxKey) else none

variable {α : Type*} (p : α → Bool)

/-- `Iterator::rposition` -/
def rposition (values : List α) : Option ℕ := (values.reverse.findIdx? p).map fun i => values.length - 1 - i

/-- The positions of the first and of the last value that passes. -/
def positions (values : List α) : Option (ℕ × ℕ) :=
  (values.findIdx? p).bind fun first => (rposition p values).map fun last => (first,last)

def AdaptiveI64Set.selectiveKeyRange : AdaptiveI64Set → Option (ℤ × ℤ)
  | .dense d _ => (positions id d.present).bind fun (first,last) => selectiveI64Range first last d.len
  | .hash keys => if h : keys.Nonempty then selectiveI64Range (keys.min' h) (keys.max' h) keys.card else none

def DenseI64RankMap.selectiveKeyRange {τ : Type*} (m : DenseI64RankMap τ) : Option (ℤ × ℤ) :=
  selectiveI64Range m.minKey m.maxKey m.values.length

def AdaptiveI64Map.selectiveKeyRange {ν : Type*} : AdaptiveI64Map ν → Option (ℤ × ℤ)
  | .dense d => (positions id d.present).bind fun (first,last) => selectiveI64Range first last d.len
  | .hash values => values.keys.min?.bind fun minKey => values.keys.max?.bind fun maxKey =>
    selectiveI64Range minKey maxKey values.keys.length

/-- The sums of the base and an offset wrap. -/
def DenseI64Map.selectiveKeyRange {ν : Type*} [DecidableEq ν] (m : DenseI64Map ν) : Option (ℤ × ℤ) :=
  match m.fallback with
  | some fallback => fallback.selectiveKeyRange
  | none => (positions (· ≠ m.missing) m.dense).bind fun (first,last) =>
    selectiveI64Range (wrapSigned 64 (m.baseKey + first)) (wrapSigned 64 (m.baseKey + last)) m.len

end Ranges

section Bounds
variable {minKey maxKey low high key : ℤ} {len : ℕ}

theorem selectiveI64Range_eq_some (h : selectiveI64Range minKey maxKey len = some (low,high)) :
    low = minKey ∧ high = maxKey ∧ 0 ≤ minKey ∧ minKey ≤ maxKey := by
  unfold selectiveI64Range at h
  split_ifs at h with hguard
  obtain ⟨width,-,h⟩ := Option.bind_eq_some_iff.mp h
  split_ifs at h
  cases h
  simp only [not_or,not_lt] at hguard
  exact ⟨rfl,rfl,hguard.2.1,hguard.2.2⟩

variable {α : Type*} {p : α → Bool} {values : List α} {first last i : ℕ}

theorem le_of_findIdx? (h : values.findIdx? p = some first) (hi : i < values.length) (hp : p values[i] = true) :
    first ≤ i := by
  obtain ⟨_,_,hbefore⟩ := List.findIdx?_eq_some_iff_getElem.mp h
  by_contra hlt
  exact hbefore i (not_le.mp hlt) hp

/-- Every value that passes stands between the two positions. -/
theorem positions_bounds (h : positions p values = some (first,last)) (hi : i < values.length)
    (hp : p values[i] = true) : first ≤ i ∧ i ≤ last ∧ last < values.length := by
  obtain ⟨first',hfirst,h⟩ := Option.bind_eq_some_iff.mp h
  obtain ⟨last',hlast,h⟩ := Option.map_eq_some_iff.mp h
  cases h
  obtain ⟨back,hback,rfl⟩ := Option.map_eq_some_iff.mp hlast
  have hlength : values.reverse.length = values.length := List.length_reverse
  have hle := le_of_findIdx? (i := values.length - 1 - i) hback (by omega) (by
    rw [List.getElem_reverse]
    simpa [show values.length - 1 - (values.length - 1 - i) = i by omega] using hp)
  exact ⟨le_of_findIdx? hfirst hi hp,by omega,by omega⟩

/-- Flags as keys: the range holds the index of every flag that is set. -/
theorem flags_range {flags : List Bool} (hflag : flags.getD key.toNat false = true) (hkey : 0 ≤ key)
    (h : (positions id flags).bind (fun e => selectiveI64Range e.1 e.2 len) = some (low,high)) :
    low ≤ key ∧ key ≤ high := by
  obtain ⟨⟨first,last⟩,hpositions,h⟩ := Option.bind_eq_some_iff.mp h
  obtain ⟨rfl,rfl,-,-⟩ := selectiveI64Range_eq_some h
  have hlt : key.toNat < flags.length := by
    by_contra hle
    rw [List.getD_eq_default _ _ (not_lt.mp hle)] at hflag
    cases hflag
  rw [List.getD_eq_getElem _ _ hlt] at hflag
  have := positions_bounds hpositions hlt hflag
  omega

end Bounds

section Structures
variable {low high key : ℤ}

theorem AdaptiveI64Set.range_contains {s : AdaptiveI64Set} (h : s.selectiveKeyRange = some (low,high))
    (hkey : s.contains key = true) : low ≤ key ∧ key ≤ high := by
  rw [contains_eq,decide_eq_true_iff] at hkey
  cases s with
  | dense d maxDenseKey =>
    obtain ⟨hpos,hflag⟩ := DenseKeys.mem_toHash.mp hkey
    exact flags_range hflag hpos h
  | hash keys =>
    rw [selectiveKeyRange] at h
    split_ifs at h
    obtain ⟨rfl,rfl,-,-⟩ := selectiveI64Range_eq_some h
    exact ⟨Finset.min'_le _ _ hkey,Finset.le_max' _ _ hkey⟩

variable {ν : Type*}

theorem AdaptiveI64Map.range_contains {m : AdaptiveI64Map ν} (h : m.selectiveKeyRange = some (low,high))
    (hkey : (m.get key).isSome = true) : low ≤ key ∧ key ≤ high := by
  rw [get_eq] at hkey
  cases m with
  | dense d =>
    obtain ⟨hpos,hflag⟩ := DenseKeys.mem_toHash.mp (DenseEntries.lookup_isSome_iff.mp hkey)
    exact flags_range hflag hpos h
  | hash values =>
    obtain ⟨minKey,hmin,h⟩ := Option.bind_eq_some_iff.mp h
    obtain ⟨maxKey,hmax,h⟩ := Option.bind_eq_some_iff.mp h
    obtain ⟨rfl,rfl,-,-⟩ := selectiveI64Range_eq_some h
    have hmem : key ∈ values.keys := AList.lookup_isSome.mp hkey
    exact ⟨(List.min?_eq_some_iff.mp hmin).2 key hmem,(List.max?_eq_some_iff.mp hmax).2 key hmem⟩

theorem wrapSigned_offset {base : ℤ} {offset : ℕ} (hbase : InSigned 64 base) (hoffset : offset < 2 ^ 63) :
    wrapSigned 64 (base + offset) = base + offset ∨ wrapSigned 64 (base + offset) < 0 ∧ 2 ^ 63 ≤ base + offset := by
  obtain ⟨hlow,hhigh⟩ := hbase
  by_cases hin : base + offset < 2 ^ 63
  · exact .inl (wrapSigned_of_mem (by decide) ⟨by omega,hin⟩)
  · rw [wrapSigned,Int.bmod_def]
    omega

/-- A sum that wraps is negative, and then there is no range. -/
theorem DenseI64Map.range_contains [DecidableEq ν] {m : DenseI64Map ν} (hfits : m.Fits) (hbase : InSigned 64 m.baseKey)
    (h : m.selectiveKeyRange = some (low,high)) (hkey : (m.get key).isSome = true) : low ≤ key ∧ key ≤ high := by
  rw [selectiveKeyRange] at h
  rw [get_eq hfits,lookup] at hkey
  cases hfallback : m.fallback with
  | some fallback =>
    rw [hfallback] at h hkey
    exact AdaptiveI64Map.range_contains h (by rw [AdaptiveI64Map.get_eq]; exact hkey)
  | none =>
    rw [hfallback] at h hkey
    obtain ⟨⟨first,last⟩,hpositions,h⟩ := Option.bind_eq_some_iff.mp h
    obtain ⟨rfl,rfl,hzero,hle⟩ := selectiveI64Range_eq_some h
    have hslot : m.slot key ≠ m.missing := by
      intro heq
      rw [heq,filter_missing] at hkey
      cases hkey
    have hmin : m.baseKey ≤ key := by
      by_contra hlt
      exact hslot (if_neg hlt)
    rw [slot,if_pos hmin] at hslot
    have hlt : (key - m.baseKey).toNat < m.dense.length := by
      by_contra hge
      exact hslot (List.getD_eq_default _ _ (not_lt.mp hge))
    rw [List.getD_eq_getElem _ _ hlt] at hslot
    obtain ⟨hfirst,hlast,hlength⟩ := positions_bounds hpositions hlt (decide_eq_true hslot)
    have hwrapFirst := wrapSigned_offset hbase (hfirst.trans_lt (hlt.trans hfits))
    have hwrapLast := wrapSigned_offset hbase (hlength.trans hfits)
    omega

end Structures

section RankMaps
open DenseI64RankMap
variable {τ : Type*} [Inhabited τ] {valueBytes maxBytes : ℕ} {m : DenseI64RankMap τ} {low high key : ℤ}

/-- The bounds a rank map keeps enclose its keys. -/
def DenseI64RankMap.Encloses (m : DenseI64RankMap τ) : Prop :=
  ∀ key, (m.get key).isSome = true → m.minKey ≤ key ∧ key ≤ m.maxKey

omit [Inhabited τ] in
theorem mem_of_lastFor {pairs : List (ℤ × τ)} (h : (Map.lastFor pairs key).isSome = true) :
    key ∈ pairs.map Prod.fst := by
  by_contra hnot
  rw [Map.lastFor_eq_none.mpr hnot] at h
  cases h

theorem fromPairs_encloses {pairs : List (ℤ × τ)} (hbuild : fromPairs valueBytes maxBytes pairs = some m) :
    m.Encloses := by
  intro key hkey
  rw [fromPairs_get hbuild] at hkey
  have hmem := mem_of_lastFor hkey
  obtain ⟨indices,-,hbuild⟩ := Option.bind_eq_some_iff.mp hbuild
  obtain ⟨pairCount,-,hbuild⟩ := Option.bind_eq_some_iff.mp hbuild
  split_ifs at hbuild
  obtain ⟨wordCount,-,hbuild⟩ := Option.bind_eq_some_iff.mp hbuild
  obtain ⟨estimated,-,hbuild⟩ := Option.bind_eq_some_iff.mp hbuild
  split_ifs at hbuild
  obtain ⟨⟨prefixes,total⟩,-,hbuild⟩ := Option.bind_eq_some_iff.mp hbuild
  dsimp only at hbuild
  split_ifs at hbuild
  cases hbuild
  exact ⟨(minKeyOf_spec (List.ne_nil_of_mem hmem)).2 key hmem,le_maxKeyOf hmem⟩

theorem fromChunksParallel_encloses {chunks : List (List (ℤ × τ))}
    (hbuild : fromChunksParallel valueBytes maxBytes chunks = some m) : m.Encloses := by
  intro key hkey
  rw [fromChunksParallel_get hbuild] at hkey
  obtain ⟨p,hp,rfl⟩ := List.mem_map.mp (mem_of_lastFor hkey)
  obtain ⟨pairs,hpairs,hp⟩ := List.mem_flatten.mp hp
  obtain ⟨bitmaps,hmapM,hbuild⟩ := Option.bind_eq_some_iff.mp hbuild
  obtain ⟨c,hc,hof⟩ := exists_of_forall₂_left ((mapM_eq_some_iff.mp hmapM).imp fun _ _ => bitmapOf_chunk) hpairs
  have hne : pairs ≠ [] := List.ne_nil_of_mem hp
  have hkeys : p.1 ∈ pairs.map Prod.fst := List.mem_map_of_mem hp
  have hfilled : c ∈ bitmaps.filter fun chunk => chunk.pairCount ≠ 0 := by
    refine List.mem_filter.mpr ⟨hc,decide_eq_true ?_⟩
    rw [hof.count]
    exact fun hzero => hne (List.length_eq_zero_iff.mp hzero)
  have hmin : minKeyOf ((bitmaps.filter fun chunk => chunk.pairCount ≠ 0).map (·.minKey)) ≤ p.1 := by
    have hmem := List.mem_map_of_mem (f := fun c : DenseI64RankChunkBitmap => c.minKey) hfilled
    refine ((minKeyOf_spec (List.ne_nil_of_mem hmem)).2 _ hmem).trans ?_
    rw [hof.minKey hne]
    exact (minKeyOf_spec (List.ne_nil_of_mem hkeys)).2 _ hkeys
  have hmax : p.1 ≤ maxKeyOf ((bitmaps.filter fun chunk => chunk.pairCount ≠ 0).map (·.maxKey)) := by
    refine le_trans ?_ (le_maxKeyOf (List.mem_map_of_mem (f := fun c : DenseI64RankChunkBitmap => c.maxKey) hfilled))
    rw [hof.maxKey hne]
    exact le_maxKeyOf hkeys
  obtain ⟨pairCount,-,hbuild⟩ := Option.bind_eq_some_iff.mp hbuild
  obtain ⟨localWordCount,-,hbuild⟩ := Option.bind_eq_some_iff.mp hbuild
  split_ifs at hbuild
  obtain ⟨wordCount,-,hbuild⟩ := Option.bind_eq_some_iff.mp hbuild
  obtain ⟨estimated,-,hbuild⟩ := Option.bind_eq_some_iff.mp hbuild
  obtain ⟨localBytes,-,hbuild⟩ := Option.bind_eq_some_iff.mp hbuild
  split_ifs at hbuild
  obtain ⟨⟨prefixes,total⟩,-,hbuild⟩ := Option.bind_eq_some_iff.mp hbuild
  dsimp only at hbuild
  split_ifs at hbuild
  all_goals
    obtain ⟨values,-,rfl⟩ := Option.map_eq_some_iff.mp hbuild
    exact ⟨hmin,hmax⟩

end RankMaps

section Structures
variable {ν : Type*} [DecidableEq ν] [Inhabited ν]

inductive KeyStructure (ν : Type*)
  | set (keys : AdaptiveI64Set)
  | rankMap (entries : DenseI64RankMap ν)
  | adaptiveMap (entries : AdaptiveI64Map ν)
  | denseMap (entries : DenseI64Map ν)

namespace KeyStructure

def selectiveKeyRange : KeyStructure ν → Option (ℤ × ℤ)
  | set keys => keys.selectiveKeyRange
  | rankMap entries => entries.selectiveKeyRange
  | adaptiveMap entries => entries.selectiveKeyRange
  | denseMap entries => entries.selectiveKeyRange

def Holds : KeyStructure ν → ℤ → Prop
  | set keys, key => keys.contains key = true
  | rankMap entries, key => (entries.get key).isSome = true
  | adaptiveMap entries, key => (entries.get key).isSome = true
  | denseMap entries, key => (entries.get key).isSome = true

/-- A rank map comes out of one of its builders; the base of a dense map is an `i64`, and its vector has a length. -/
def Made : KeyStructure ν → Prop
  | set _ | adaptiveMap _ => True
  | rankMap entries => ∃ valueBytes maxBytes, (∃ pairs, DenseI64RankMap.fromPairs valueBytes maxBytes pairs = some entries) ∨
    ∃ chunks, DenseI64RankMap.fromChunksParallel valueBytes maxBytes chunks = some entries
  | denseMap entries => entries.Fits ∧ InSigned 64 entries.baseKey

theorem range_contains {s : KeyStructure ν} (hmade : s.Made) {low high : ℤ}
    (h : s.selectiveKeyRange = some (low,high)) {key : ℤ} (hkey : s.Holds key) : low ≤ key ∧ key ≤ high := by
  cases s with
  | set keys => exact AdaptiveI64Set.range_contains h hkey
  | adaptiveMap entries => exact AdaptiveI64Map.range_contains h hkey
  | denseMap entries => exact DenseI64Map.range_contains hmade.1 hmade.2 h hkey
  | rankMap entries =>
    obtain ⟨rfl,rfl,-,-⟩ := selectiveI64Range_eq_some h
    obtain ⟨valueBytes,maxBytes,⟨pairs,hbuild⟩ | ⟨chunks,hbuild⟩⟩ := hmade
    · exact fromPairs_encloses hbuild key hkey
    · exact fromChunksParallel_encloses hbuild key hkey

/-- No key lies outside of the range, so a row group whose bounds do not meet it holds none. -/
theorem selectiveKeyRange_prunes {s : KeyStructure ν} (hmade : s.Made) {low high : ℤ}
    (h : s.selectiveKeyRange = some (low,high)) :
    (∀ key, s.Holds key → low ≤ key ∧ key ≤ high) ∧
      ∀ (rows : List ℤ) (groupMin groupMax : ℤ), (∀ row ∈ rows, groupMin ≤ row ∧ row ≤ groupMax) →
        groupMax < low ∨ high < groupMin → ∀ row ∈ rows, ¬ s.Holds row := by
  refine ⟨fun _ => range_contains hmade h,fun rows groupMin groupMax hbounds hapart row hrow hkey => ?_⟩
  have hgroup := hbounds row hrow
  have hrange := range_contains hmade h hkey
  omega

theorem selectiveKeyRange_prunes_base : (denseMap ⟨[0,7,0,9],3,0,none⟩ : KeyStructure ℕ).selectiveKeyRange = some (4,6) ∧
    ∀ key, (denseMap ⟨[0,7,0,9],3,0,none⟩ : KeyStructure ℕ).Holds key → 4 ≤ key ∧ key ≤ 6 := by
  have hrange : (denseMap ⟨[0,7,0,9],3,0,none⟩ : KeyStructure ℕ).selectiveKeyRange = some (4,6) := by decide +kernel
  have hmade : (denseMap ⟨[0,7,0,9],3,0,none⟩ : KeyStructure ℕ).Made := by
    constructor
    · exact (by decide : 4 < 2 ^ 63)
    · decide
  exact ⟨hrange,(selectiveKeyRange_prunes hmade hrange).1⟩

end KeyStructure
end Structures
end Dodam.Dense
