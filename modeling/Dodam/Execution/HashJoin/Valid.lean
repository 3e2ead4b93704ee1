import Dodam.Execution.HashJoin.Maps

/-! # What a finished build answers

`HashJoinBuild.Valid` says of every layout a build carries that it answers for the rows of the
input, and of the general map that it does when the mode fills it.
-/
namespace Dodam.Execution
open Foundation

section Spans
variable {α : Type}

def int32Keys (rows : List (Row α)) : List ℤ :=
  rows.filterMap fun row => (int32Layout.read row.key).map Int32.toInt

def inputRows (batches : List (RecordBatch α)) : List (Row α) := batches.flatMap RecordBatch.rows

/-- The keys are few enough for a dense array but too far apart for its 32-bit index. -/
def DenseOverflow (types : List DataType) (batches : List (RecordBatch α)) : Prop :=
  types = [.int32] ∧ 2 ^ 31 < keySpan (int32Keys (inputRows batches)) ∧
    keySpan (int32Keys (inputRows batches)) ≤ denseWidthLimit (totalRows batches)

theorem mem_int32Keys {batches : List (RecordBatch α)} {x : ℤ} :
    x ∈ int32Keys (inputRows batches) ↔
      ∃ k : Int32, refsOf int32Layout.read (rowRefs batches) k ≠ [] ∧ k.toInt = x := by
  unfold int32Keys inputRows
  rw [List.mem_filterMap,← map_snd_rowRefs]
  constructor
  · rintro ⟨row,hrow,hx⟩
    obtain ⟨p,hp,rfl⟩ := List.mem_map.mp hrow
    obtain ⟨k,hk,rfl⟩ := Option.map_eq_some_iff.mp hx
    exact ⟨k,(refsOf_ne_nil int32Layout.read).mpr ⟨p,hp,hk⟩,rfl⟩
  · rintro ⟨k,hk,rfl⟩
    obtain ⟨p,hp,hk⟩ := (refsOf_ne_nil int32Layout.read).mp hk
    exact ⟨p.2,List.mem_map.mpr ⟨p,hp,rfl⟩,by rw [hk]; rfl⟩

theorem keySpan_congr {l r : List ℤ} (h : ∀ x, x ∈ l ↔ x ∈ r) : keySpan l = keySpan r := by
  rcases min?_max?_cases l with rfl | ⟨min,max,hmin,hmax⟩
  · have hr : r = [] := List.eq_nil_iff_forall_not_mem.mpr fun x hx => by simpa using (h x).mpr hx
    rw [hr]
  · obtain ⟨h1,h2,hb,hs⟩ := keySpan_of_bounds hmin hmax
    have hmin' : r.min? = some min :=
      List.min?_eq_some_iff.mpr ⟨(h min).mp h1,fun x hx => (hb x ((h x).mpr hx)).1⟩
    have hmax' : r.max? = some max :=
      List.max?_eq_some_iff.mpr ⟨(h max).mp h2,fun x hx => (hb x ((h x).mpr hx)).2⟩
    rw [hs,(keySpan_of_bounds hmin' hmax').2.2.2]

theorem keySpan_of_answers {ρ : Type} {batches : List (RecordBatch α)} {m : Map Int32 ρ}
    (h : ∀ k, m.lookup k ≠ none ↔ refsOf int32Layout.read (rowRefs batches) k ≠ []) :
    (m.toPairs = [] ↔ int32Keys (inputRows batches) = []) ∧
      keySpan (m.toPairs.map fun e => e.1.toInt) = keySpan (int32Keys (inputRows batches)) := by
  have hmem : ∀ x, x ∈ m.toPairs.map (fun e => e.1.toInt) ↔ x ∈ int32Keys (inputRows batches) := by
    intro x
    rw [mem_int32Keys,List.mem_map]
    constructor
    · rintro ⟨⟨k,v⟩,he,rfl⟩
      refine ⟨k,(h k).mp ?_,rfl⟩
      rw [Map.mem_toPairs.mp he]
      simp
    · rintro ⟨k,hk,rfl⟩
      obtain ⟨v,hv⟩ := Option.ne_none_iff_exists'.mp ((h k).mpr hk)
      exact ⟨(k,v),Map.mem_toPairs.mpr hv,rfl⟩
  refine ⟨?_,keySpan_congr hmem⟩
  rw [← List.map_eq_nil_iff (f := fun e : Int32 × ρ => e.1.toInt),List.eq_nil_iff_forall_not_mem,
    List.eq_nil_iff_forall_not_mem]
  exact forall_congr' fun x => not_congr (hmem x)

end Spans

section Valid
variable {α κ : Type} [DecidableEq κ]

/-- A layout of the key types of the input that answers for its rows. -/
structure Serves (layout : KeyLayout κ) (types : List DataType) (refs : List (BuildRowRef × Row α))
    (find : κ → Option (List BuildRowRef)) : Prop where
  types_eq : types = layout.types
  answers : Answers layout.read refs find

/-- A dense Int32 array of single references: a slot holds the row whose key has its offset. -/
structure DenseUnique (types : List DataType) (refs : List (BuildRowRef × Row α))
    (rows : DenseI32BuildRows) : Prop where
  serves : Serves int32Layout types refs fun k => (rows.get k).map fun r => [r]
  inside : ∀ p ∈ refs, ∀ k, int32Layout.read p.2.key = some k →
    rows.min ≤ k.toInt ∧ (k.toInt - rows.min).toNat < rows.slots.len
  slot : ∀ i r, rows.slots.get i = some r ↔
    ∃ p ∈ refs, p.1 = r ∧ ∃ k, int32Layout.read p.2.key = some k ∧ i = (k.toInt - rows.min).toNat
  len_le : rows.slots.len ≤ 2 ^ 31

structure ServesSet (types : List DataType) (refs : List (BuildRowRef × Row α))
    (contains : Int32 → Bool) : Prop where
  types_eq : types = [.int32]
  contains_iff : ∀ k, contains k = true ↔ refsOf int32Layout.read refs k ≠ []

def HashJoinBuild.findRow (hashRowWithSalt : RowHash) (build : HashJoinBuild α) (key : OwnedRow) :
    Option (List BuildRowRef) :=
  if build.bloom.mightContain hashRowWithSalt key = false then none
  else (build.rows.lookup key).or (build.heavyRows.lookup key)

def HashJoinBuild.Typed (build : HashJoinBuild α) : Prop :=
  build.i32DenseUniqueRows.isSome ∨ build.i32UniqueRows.isSome ∨ build.i32DenseRows.isSome ∨
  build.i32Rows.isSome ∨ build.i64DenseUniqueRows.isSome ∨ build.i64UniqueRows.isSome ∨
  build.i64Rows.isSome ∨ build.i32PairDenseUniqueRows.isSome ∨ build.i32PairUniqueRows.isSome ∨
  build.i32PairRows.isSome ∨ build.stringUniqueRows.isSome ∨ build.stringRows.isSome

structure HashJoinBuild.Valid (hashRowWithSalt : RowHash) (mode : HashBuildMode)
    (collectAllRows : Bool) (batches : List (RecordBatch α)) (types : List DataType)
    (build : HashJoinBuild α) : Prop where
  batches_eq : build.batches = batches
  keyDataTypes_eq : build.keyDataTypes = types
  allRows_eq : buildsKeySet mode types = false →
    build.allRows = if collectAllRows then (rowRefs batches).map Prod.fst else []
  i32DenseUnique : ∀ d, build.i32DenseUniqueRows = some d → DenseUnique types (rowRefs batches) d
  i32Unique : ∀ m, build.i32UniqueRows = some m →
    Serves int32Layout types (rowRefs batches) fun k => (m.lookup k).map fun r => [r]
  i32Dense : ∀ d, build.i32DenseRows = some d →
    Serves int32Layout types (rowRefs batches) (DenseI32MultiBuildRows.get d)
  i32 : ∀ m, build.i32Rows = some m → Serves int32Layout types (rowRefs batches) m.lookup
  i64DenseUnique : ∀ d, build.i64DenseUniqueRows = some d →
    Serves int64Layout types (rowRefs batches) fun k => (DenseI64BuildRows.get d k).map fun r => [r]
  i64Unique : ∀ m, build.i64UniqueRows = some m →
    Serves int64Layout types (rowRefs batches) fun k => (m.lookup k).map fun r => [r]
  i64 : ∀ m, build.i64Rows = some m → Serves int64Layout types (rowRefs batches) m.lookup
  pairDenseUnique : ∀ d, build.i32PairDenseUniqueRows = some d →
    Serves int32PairLayout types (rowRefs batches) fun k => (d.get k).map fun r => [r]
  pairUnique : ∀ m, build.i32PairUniqueRows = some m →
    Serves int32PairLayout types (rowRefs batches) fun k => (m.lookup k).map fun r => [r]
  pair : ∀ m, build.i32PairRows = some m → Serves int32PairLayout types (rowRefs batches) m.lookup
  stringUnique : ∀ m, build.stringUniqueRows = some m →
    Serves utf8Layout types (rowRefs batches) fun k => (m.lookup k).map fun r => [r]
  string : ∀ m, build.stringRows = some m → Serves utf8Layout types (rowRefs batches) m.lookup
  denseKeySet : ∀ d, build.i32DenseKeySet = some d → ServesSet types (rowRefs batches) d.contains
  keySet : ∀ keys, build.i32KeySet = some keys →
    ServesSet types (rowRefs batches) fun k => decide (k ∈ keys)
  keySet_isSome : build.i32KeySet.isSome = buildsKeySet mode types
  denseKeySet_none : buildsKeySet mode types = false → build.i32DenseKeySet = none
  unique_none : mode ≠ .fastSingleKey → build.i32DenseUniqueRows = none ∧
    build.i32UniqueRows = none ∧ build.i64DenseUniqueRows = none ∧ build.i64UniqueRows = none
  typed : buildsTypedOnly mode types = true → build.Typed
  general : buildsKeySet mode types = false → buildsTypedOnly mode types = false →
    Answers ownedKey (rowRefs batches) (build.findRow hashRowWithSalt)

end Valid

section Finish
variable {α : Type}

theorem lookup_splitHeavyHitters_from (totalRows : ℕ)
    (es : List (Sigma fun _ : OwnedRow => List BuildRowRef)) (hn : es.NodupKeys)
    (acc : Map OwnedRow (List BuildRowRef) × Map OwnedRow (List BuildRowRef))
    (hacc : ∀ k ∈ es.keys, acc.1.lookup k = none ∧ acc.2.lookup k = none) (k : OwnedRow) :
    let split := es.foldl (fun acc entry =>
      if heavyHitterThreshold totalRows ≤ entry.2.length then
        (acc.1,acc.2.insert entry.1 entry.2)
      else (acc.1.insert entry.1 entry.2,acc.2)) acc
    (split.1.lookup k).or (split.2.lookup k) =
      (es.dlookup k).or ((acc.1.lookup k).or (acc.2.lookup k)) := by
  induction es generalizing acc with
  | nil => rfl
  | cons e es ih =>
    obtain ⟨key,refs⟩ := e
    rw [List.nodupKeys_cons] at hn
    have hfresh := hacc key (by simp)
    rw [List.foldl_cons]
    -- the entry lands in one half, where no later entry touches its key
    have hstep : ∀ k' ∈ es.keys, k' ≠ key ∧ acc.1.lookup k' = none ∧ acc.2.lookup k' = none := by
      intro k' hk'
      exact ⟨fun he => hn.1 (he ▸ hk'),hacc k' (by simp [hk'])⟩
    split
    · dsimp only at ih ⊢
      rw [ih hn.2 (acc.1,acc.2.insert key refs) fun k' hk' => ⟨(hstep k' hk').2.1,by
        rw [AList.lookup_insert_ne (hstep k' hk').1]
        exact (hstep k' hk').2.2⟩]
      by_cases hk : k = key
      · subst hk
        rw [List.dlookup_eq_none.mpr hn.1,hfresh.1,AList.lookup_insert,List.dlookup_cons_eq]
        rfl
      · rw [AList.lookup_insert_ne hk,List.dlookup_cons_ne es _ hk]
    · dsimp only at ih ⊢
      rw [ih hn.2 (acc.1.insert key refs,acc.2) fun k' hk' => ⟨by
        rw [AList.lookup_insert_ne (hstep k' hk').1]
        exact (hstep k' hk').2.1,(hstep k' hk').2.2⟩]
      by_cases hk : k = key
      · subst hk
        rw [List.dlookup_eq_none.mpr hn.1,AList.lookup_insert,List.dlookup_cons_eq]
        rfl
      · rw [AList.lookup_insert_ne hk,List.dlookup_cons_ne es _ hk]

theorem lookup_splitHeavyHitters (rows : Map OwnedRow (List BuildRowRef)) (totalRows : ℕ)
    (k : OwnedRow) :
    ((splitHeavyHitters rows totalRows).1.lookup k).or ((splitHeavyHitters rows totalRows).2.lookup k) =
      rows.lookup k := by
  have h := lookup_splitHeavyHitters_from totalRows rows.entries rows.nodupKeys (∅,∅)
    (fun k _ => ⟨rfl,rfl⟩) k
  unfold splitHeavyHitters
  rw [h]
  exact Option.or_none

variable {batches : List (RecordBatch α)} {types : List DataType}

theorem answers_lookup_ne_none {κ : Type} [DecidableEq κ] {layout : KeyLayout κ}
    {refs : List (BuildRowRef × Row α)} {find : κ → Option (List BuildRowRef)}
    (h : Answers layout.read refs find) (k : κ) : find k ≠ none ↔ refsOf layout.read refs k ≠ [] := by
  rw [h k,Ne,nonEmpty_eq_none]

/-- The dense array of lists exists only while it answers; it overflows exactly when the keys do. -/
theorem denseMulti_spec {m : Map Int32 (List BuildRowRef)} (ht : types = [.int32])
    (h : Answers int32Layout.read (rowRefs batches) m.lookup) :
    (¬ DenseOverflow types batches → ∃ o, denseI32MultiBuildRows m (totalRows batches) = .ok o ∧
      ∀ d, o = some d → Serves int32Layout types (rowRefs batches) (DenseI32MultiBuildRows.get d)) ∧
    (DenseOverflow types batches → ∃ e, denseI32MultiBuildRows m (totalRows batches) = .error e) := by
  obtain ⟨hnil,hspan⟩ := keySpan_of_answers fun k => answers_lookup_ne_none h k
  by_cases hnone : m.toPairs = [] ∨
      denseWidthLimit (totalRows batches) < keySpan (m.toPairs.map fun e => e.1.toInt)
  · constructor
    · intro _
      exact ⟨none,denseI32Rows_none hnone,fun d hd => by cases hd⟩
    · rintro ⟨-,h1,h2⟩
      rcases hnone with hnone | hnone
      · rw [hnil.mp hnone] at h1
        simp [keySpan] at h1
      · omega
  · rw [not_or,not_lt] at hnone
    constructor
    · intro ho
      have hs : keySpan (m.toPairs.map fun e => e.1.toInt) ≤ 2 ^ 31 := by
        by_contra hgt
        exact ho ⟨ht,by omega,by omega⟩
      obtain ⟨d,hd,hget⟩ := denseI32Rows_some hnone.1 hnone.2 hs
      refine ⟨some d,hd,?_⟩
      rintro d' ⟨⟩
      refine ⟨ht,fun k => ?_⟩
      rw [← h k]
      exact hget k
    · rintro ⟨-,h1,-⟩
      exact denseI32Rows_panics hnone.1 hnone.2 (by omega)

theorem denseKeySet_spec {keys : List Int32} (ht : types = [.int32])
    (h : KeySetOf (rowRefs batches) keys) :
    (¬ DenseOverflow types batches → ∃ o, denseI32KeySet keys (totalRows batches) = .ok o ∧
      ∀ d, o = some d → ServesSet types (rowRefs batches) d.contains) ∧
    (DenseOverflow types batches → ∃ e, denseI32KeySet keys (totalRows batches) = .error e) := by
  have hmem : ∀ x, x ∈ keys.map Int32.toInt ↔ x ∈ int32Keys (inputRows batches) := by
    intro x
    rw [mem_int32Keys,List.mem_map]
    exact exists_congr fun k => and_congr_left fun _ => h.mem k
  have hspan := keySpan_congr hmem
  have hnil : keys = [] → int32Keys (inputRows batches) = [] := by
    rintro rfl
    exact List.eq_nil_iff_forall_not_mem.mpr fun x hx => by simpa using (hmem x).mpr hx
  by_cases hnone : keys = [] ∨ denseWidthLimit (totalRows batches) < keySpan (keys.map Int32.toInt)
  · constructor
    · intro _
      exact ⟨none,denseI32KeySet_none hnone,fun d hd => by cases hd⟩
    · rintro ⟨-,h1,h2⟩
      rcases hnone with hnone | hnone
      · rw [hnil hnone] at h1
        simp [keySpan] at h1
      · omega
  · rw [not_or,not_lt] at hnone
    have hspec := denseI32KeySet_spec hnone.1 h.nodup hnone.2
    constructor
    · intro ho
      have hs : keySpan (keys.map Int32.toInt) ≤ 2 ^ 31 := by
        by_contra hgt
        exact ho ⟨ht,by omega,by omega⟩
      obtain ⟨d,hd,hc⟩ := hspec.1 hs
      refine ⟨some d,hd,?_⟩
      rintro d' ⟨⟩
      exact ⟨ht,fun k => (hc k).trans (h.mem k)⟩
    · rintro ⟨-,h1,-⟩
      exact hspec.2 (by omega)

theorem denseOf_spec {μ δ : Type} (make : μ → Result (Option δ)) (maps : Option μ) {P : δ → Prop}
    (h : ∀ m, maps = some m → ∃ o, make m = .ok o ∧ ∀ d, o = some d → P d) :
    ∃ o, denseOf make maps = .ok o ∧ (∀ d, o = some d → P d) ∧ (maps = none → o = none) := by
  cases maps with
  | none => exact ⟨none,rfl,fun d hd => absurd hd (by simp),fun _ => rfl⟩
  | some m =>
    obtain ⟨o,ho,hP⟩ := h m rfl
    exact ⟨o,ho,hP,fun hm => absurd hm (by simp)⟩

variable {hashRowWithSalt : RowHash} {mode : HashBuildMode} {collectAllRows : Bool}
variable {build : HashJoinBuild α}

theorem LayoutMaps.types_eq {κ : Type} [DecidableEq κ] {layout : KeyLayout κ} {wanted : Bool}
    {seen : List (BuildRowRef × Row α)} {unique : Option (Map κ BuildRowRef)}
    {multi : Option (Map κ (List BuildRowRef))}
    (h : LayoutMaps layout types wanted seen unique multi) (hm : unique.isSome ∨ multi.isSome) :
    types = layout.types :=
  (h.kept.mp hm).1

theorem denseUnique_none (h : MapsInv hashRowWithSalt mode collectAllRows batches types
      (rowRefs batches) build)
    (hrefused : mode = .fastSingleKey → types = [.int32] → int32Keys (inputRows batches) = [] ∨
      denseWidthLimit (totalRows batches) < keySpan (int32Keys (inputRows batches))) :
    denseOf (fun unique => denseI32BuildRows unique (totalRows build.batches)) build.i32UniqueRows =
      .ok none := by
  cases hu : build.i32UniqueRows with
  | none => rfl
  | some unique =>
    have hmode : mode = .fastSingleKey := by
      by_contra hne
      rw [h.i32Unique_none hne] at hu
      cases hu
    have ht : types = [.int32] := h.i32.types_eq (Or.inl (by rw [hu]; rfl))
    have hanswers := h.i32.answers.2 unique hu
    obtain ⟨hnil,hspan⟩ := keySpan_of_answers (m := unique) fun k => by
      rw [← answers_lookup_ne_none hanswers k]
      simp
    refine denseI32Rows_none ?_
    rw [hnil,hspan,h.batches_eq]
    exact hrefused hmode ht

theorem finish_ok (h : MapsInv hashRowWithSalt mode collectAllRows batches types
      (rowRefs batches) build)
    (hrefused : mode = .fastSingleKey → types = [.int32] → int32Keys (inputRows batches) = [] ∨
      denseWidthLimit (totalRows batches) < keySpan (int32Keys (inputRows batches)))
    (ho : ¬ DenseOverflow types batches) :
    ∃ b, build.finish = .ok b ∧ b.Valid hashRowWithSalt mode collectAllRows batches types ∧
      b.i32DenseUniqueRows = none := by
  have hb := h.batches_eq
  have hunique := denseUnique_none h hrefused
  have ht32 : ∀ m, build.i32Rows = some m → types = [.int32] := fun m hm =>
    h.i32.types_eq (Or.inr (by rw [hm]; rfl))
  have htKeys : ∀ keys, build.i32KeySet = some keys → types = [.int32] := by
    intro keys hk
    have hs := h.keySet_isSome
    rw [hk] at hs
    have hm : mode = .fastSemi ∧ types = [.int32] := by simpa [buildsKeySet] using hs.symm
    exact hm.2
  obtain ⟨multi,hmulti,hmultiP,-⟩ := denseOf_spec
    (fun m => denseI32MultiBuildRows m (totalRows build.batches)) build.i32Rows
    fun m hm => by
      rw [hb]
      exact (denseMulti_spec (ht32 m hm) (h.i32.answers.1 m hm).2).1 ho
  obtain ⟨keySet,hkeySet,hkeySetP,hkeySetN⟩ := denseOf_spec
    (fun keys => denseI32KeySet keys (totalRows build.batches)) build.i32KeySet
    fun keys hk => by
      rw [hb]
      exact (denseKeySet_spec (htKeys keys hk) (h.keySet keys hk)).1 ho
  obtain ⟨pair,hpair,hpairP,-⟩ := denseOf_spec
    (fun m => denseI32PairBuildRows m (totalRows build.batches)) build.i32PairUniqueRows
    (P := fun d => Serves int32PairLayout types (rowRefs batches) fun k => (d.get k).map fun r => [r])
    fun m hm => by
      obtain ⟨o,ho,hget⟩ := denseI32PairBuildRows_spec m (totalRows build.batches)
      refine ⟨o,ho,fun d hd => ⟨h.pair.types_eq (Or.inl (by rw [hm]; rfl)),fun k => ?_⟩⟩
      rw [hget d hd k]
      exact h.pair.answers.2 m hm k
  obtain ⟨i64,hi64,hi64P,hi64N⟩ := denseOf_spec
    (fun m => denseI64BuildRows m (totalRows build.batches)) build.i64UniqueRows
    (P := fun d => Serves int64Layout types (rowRefs batches)
      fun k => (DenseI64BuildRows.get d k).map fun r => [r])
    fun m hm => by
      obtain ⟨o,ho,hget⟩ := denseI64BuildRows_spec m (totalRows build.batches)
      refine ⟨o,ho,fun d hd => ⟨h.i64.types_eq (Or.inl (by rw [hm]; rfl)),fun k => ?_⟩⟩
      change Option.map _ (d.getSigned 64 k.toInt) = _
      rw [hget d hd k]
      exact h.i64.answers.2 m hm k
  refine ⟨_,by
    unfold HashJoinBuild.finish
    simp only [hunique,hmulti,hkeySet,hpair,hi64,except_bind_ok]
    rfl,?_,rfl⟩
  constructor
  · exact hb
  · exact h.keyDataTypes_eq
  · exact h.allRows_eq
  · intro d hd
    cases hd
  · intro m hm
    exact ⟨h.i32.types_eq (Or.inl (by rw [hm]; rfl)),h.i32.answers.2 m hm⟩
  · exact hmultiP
  · intro m hm
    exact ⟨ht32 m hm,(h.i32.answers.1 m hm).2⟩
  · exact hi64P
  · intro m hm
    exact ⟨h.i64.types_eq (Or.inl (by rw [hm]; rfl)),h.i64.answers.2 m hm⟩
  · intro m hm
    exact ⟨h.i64.types_eq (Or.inr (by rw [hm]; rfl)),(h.i64.answers.1 m hm).2⟩
  · exact hpairP
  · intro m hm
    exact ⟨h.pair.types_eq (Or.inl (by rw [hm]; rfl)),h.pair.answers.2 m hm⟩
  · intro m hm
    exact ⟨h.pair.types_eq (Or.inr (by rw [hm]; rfl)),(h.pair.answers.1 m hm).2⟩
  · intro m hm
    exact ⟨h.string.types_eq (Or.inl (by rw [hm]; rfl)),h.string.answers.2 m hm⟩
  · intro m hm
    exact ⟨h.string.types_eq (Or.inr (by rw [hm]; rfl)),(h.string.answers.1 m hm).2⟩
  · exact hkeySetP
  · intro keys hk
    refine ⟨htKeys keys hk,fun k => ?_⟩
    rw [decide_eq_true_iff]
    exact (h.keySet keys hk).mem k
  · exact h.keySet_isSome
  · intro hs
    refine hkeySetN ?_
    simpa [hs] using h.keySet_isSome
  · intro hm
    exact ⟨rfl,h.i32Unique_none hm,hi64N (h.i64Unique_none hm),h.i64Unique_none hm⟩
  · intro hty
    obtain ⟨hmode,hread⟩ : mode = .fastSingleKey ∧ readsTypedKey mode types = true := by
      simpa [buildsTypedOnly] using hty
    simp only [readsTypedKey,hmode,ne_eq,reduceCtorEq,not_false_eq_true,decide_true,Bool.and_true,
      Bool.or_eq_true,decide_eq_true_eq] at hread
    unfold HashJoinBuild.Typed
    rcases hread with ((ht | ht) | ht) | ht
    · rcases h.i32.kept.mpr ⟨ht,by rw [hmode]; rfl⟩ with hs | hs <;> simp [hs]
    · rcases h.i64.kept.mpr ⟨ht,rfl⟩ with hs | hs <;> simp [hs]
    · rcases h.pair.kept.mpr ⟨ht,rfl⟩ with hs | hs <;> simp [hs]
    · rcases h.string.kept.mpr ⟨ht,rfl⟩ with hs | hs <;> simp [hs]
  · intro hs hty
    have hg := h.general hs hty
    intro key
    rw [← hg.answers key]
    unfold HashJoinBuild.findRow
    dsimp only
    rw [lookup_splitHeavyHitters]
    split
    · next hbloom =>
      symm
      refine (hg.answers key).trans (nonEmpty_eq_none.mpr ?_)
      by_contra hne
      rw [hg.passes key hne] at hbloom
      cases hbloom
    · rfl

/-- The keys overflow a dense Int32 array that the build would keep. -/
theorem finish_error (h : MapsInv hashRowWithSalt mode collectAllRows batches types
      (rowRefs batches) build)
    (hmode : mode ≠ .fastSingleKey) (ho : DenseOverflow types batches) : ∃ e, build.finish = .error e := by
  have hb := h.batches_eq
  have ht := ho.1
  unfold HashJoinBuild.finish
  have hunique := h.i32Unique_none hmode
  rw [hunique]
  simp only [denseOf,except_bind_ok]
  by_cases hm : mode = .fastSemi
  · have hs : build.i32KeySet.isSome = true := by
      rw [h.keySet_isSome,hm,ht]
      rfl
    obtain ⟨keys,hkeys⟩ := Option.isSome_iff_exists.mp hs
    have hnone : build.i32Rows = none := by
      cases hr : build.i32Rows with
      | none => rfl
      | some m =>
        have := (h.i32.kept.mp (Or.inr (by rw [hr]; rfl))).2
        simp [hm] at this
    obtain ⟨e,he⟩ := (denseKeySet_spec ht (h.keySet keys hkeys)).2 ho
    rw [hnone,hkeys]
    simp only [hb,he,except_bind_ok]
    exact ⟨e,rfl⟩
  · have hs := h.i32.kept.mpr ⟨ht,by simpa using hm⟩
    rw [hunique] at hs
    obtain ⟨m,hr⟩ := Option.isSome_iff_exists.mp (hs.resolve_left (by simp))
    obtain ⟨e,he⟩ := (denseMulti_spec ht (h.i32.answers.1 m hr).2).2 ho
    rw [hr]
    simp only [hb,he]
    exact ⟨e,rfl⟩

end Finish
end Dodam.Execution
