import Dodam.Execution.HashJoin.References

/-! # The maps of a build answer for every row

One pass inserts every row into the maps that the mode and the key types select.
-/
namespace Dodam.Execution
open Foundation HashJoinBuild

section Layouts
variable {α κ : Type} [DecidableEq κ]

/-- The maps of one layout: kept for its own key types when the build wants them, and answering
for the rows seen. -/
structure LayoutMaps (layout : KeyLayout κ) (types : List DataType) (wanted : Bool)
    (seen : List (BuildRowRef × Row α)) (unique : Option (Map κ BuildRowRef))
    (multi : Option (Map κ (List BuildRowRef))) : Prop where
  answers : MapsAnswer layout.read seen unique multi
  kept : (unique.isSome ∨ multi.isSome) ↔ types = layout.types ∧ wanted = true

variable {layout : KeyLayout κ} {types : List DataType} {wanted : Bool}
variable {seen : List (BuildRowRef × Row α)} {unique : Option (Map κ BuildRowRef)}
variable {multi : Option (Map κ (List BuildRowRef))}

theorem LayoutMaps.none_of_ne (h : LayoutMaps layout types wanted seen unique multi)
    (ht : types ≠ layout.types) : unique = none ∧ multi = none := by
  have hk : ¬ (unique.isSome ∨ multi.isSome) := fun hk => ht (h.kept.mp hk).1
  simpa using hk

theorem LayoutMaps.skip (h : LayoutMaps layout types wanted seen unique multi)
    {p : BuildRowRef × Row α} (ht : cellsMatch p.2.key types = true) (hp : p.2.ownedKey = none) :
    LayoutMaps layout types wanted (seen ++ [p]) unique multi := by
  refine ⟨?_,h.kept⟩
  by_cases he : types = layout.types
  · refine h.answers.skip layout.read ?_
    have hr := layout.ownedKey_eq p.2.key (he ▸ ht)
    have hn : ownedKey p.2.key = none := hp
    rw [hn] at hr
    simpa using hr.symm
  · obtain ⟨rfl,rfl⟩ := h.none_of_ne he
    exact mapsAnswer_none layout.read _

theorem LayoutMaps.insertReadKey (h : LayoutMaps layout types wanted seen unique multi)
    (p : BuildRowRef × Row α) :
    LayoutMaps layout types wanted (seen ++ [p])
      (Execution.insertReadKey layout p.1 p.2 unique multi).1
      (Execution.insertReadKey layout p.1 p.2 unique multi).2 := by
  unfold Execution.insertReadKey
  cases hr : layout.read p.2.key with
  | none => exact ⟨h.answers.skip layout.read hr,h.kept⟩
  | some key =>
    refine ⟨h.answers.insertBuildRef layout.read hr,?_⟩
    rw [insertBuildRef_isSome,h.kept]

theorem insertReadKey_unique_none (p : BuildRowRef × Row α) :
    (insertReadKey layout p.1 p.2 none multi).1 = none := by
  unfold insertReadKey
  cases layout.read p.2.key with
  | none => rfl
  | some key => exact insertBuildRef_unique_none

theorem layoutMaps_init_none (h : ¬ (types = layout.types ∧ wanted = true)) :
    LayoutMaps layout types wanted ([] : List (BuildRowRef × Row α)) none none :=
  ⟨mapsAnswer_none layout.read [],by simpa using h⟩

theorem layoutMaps_init_unique (h : types = layout.types ∧ wanted = true) :
    LayoutMaps layout types wanted ([] : List (BuildRowRef × Row α)) (some ∅) none :=
  ⟨mapsAnswer_init_unique layout.read,by simpa using h⟩

theorem layoutMaps_init_multi (h : types = layout.types ∧ wanted = true) :
    LayoutMaps layout types wanted ([] : List (BuildRowRef × Row α)) none (some ∅) :=
  ⟨mapsAnswer_init_multi layout.read,by simpa using h⟩

end Layouts

section General
variable {α : Type} (hashRowWithSalt : RowHash)

/-- The general map answers for the rows seen and the filter passes every key of theirs. -/
structure GeneralMap (seen : List (BuildRowRef × Row α)) (build : HashJoinBuild α) : Prop where
  answers : Answers ownedKey seen build.rows.lookup
  valid : build.bloom.Valid
  passes : ∀ key, refsOf ownedKey seen key ≠ [] →
    build.bloom.mightContain hashRowWithSalt key = true

variable {hashRowWithSalt} {seen : List (BuildRowRef × Row α)} {build : HashJoinBuild α}
variable {p : BuildRowRef × Row α} {build' : HashJoinBuild α}

theorem GeneralMap.skip (h : GeneralMap hashRowWithSalt seen build)
    (hp : p.2.ownedKey = none) (hr : build'.rows = build.rows)
    (hb : build'.bloom = build.bloom) : GeneralMap hashRowWithSalt (seen ++ [p]) build' := by
  have he : ∀ k, refsOf ownedKey (seen ++ [p]) k = refsOf ownedKey seen k := by
    intro k
    refine refsOf_snoc_of_ne ownedKey ?_
    have hn : ownedKey p.2.key = none := hp
    rw [hn]
    simp
  constructor
  · rw [hr]
    exact h.answers.of_refsOf_eq ownedKey he
  · rw [hb]
    exact h.valid
  · intro key hk
    rw [hb]
    exact h.passes key (by rwa [he] at hk)

theorem GeneralMap.insert (h : GeneralMap hashRowWithSalt seen build)
    {key : OwnedRow} (hp : p.2.ownedKey = some key)
    (hr : build'.rows = Map.pushEntry build.rows key p.1)
    (hb : build'.bloom = build.bloom.insert hashRowWithSalt key) :
    GeneralMap hashRowWithSalt (seen ++ [p]) build' := by
  constructor
  · rw [hr]
    exact h.answers.pushEntry ownedKey hp
  · rw [hb]
    exact h.valid.insert hashRowWithSalt key
  · intro k hk
    rw [hb]
    by_cases he : k = key
    · rw [he]
      exact BloomFilter.mightContain_insert_self hashRowWithSalt h.valid key
    · refine BloomFilter.mightContain_insert hashRowWithSalt (h.passes k ?_) key
      rwa [refsOf_snoc_of_ne ownedKey] at hk
      have hn : ownedKey p.2.key = some key := hp
      rw [hn]
      simpa using Ne.symm he

end General

section KeySet
variable {α : Type}

/-- The key set of a semi join: the keys of the rows seen, each once. -/
structure KeySetOf (seen : List (BuildRowRef × Row α)) (keys : List Int32) : Prop where
  nodup : keys.Nodup
  mem : ∀ k, k ∈ keys ↔ refsOf int32Layout.read seen k ≠ []

variable {p : BuildRowRef × Row α}

theorem KeySetOf.skip {seen : List (BuildRowRef × Row α)} {keys : List Int32}
    (h : KeySetOf seen keys) (hp : int32Layout.read p.2.key = none) :
    KeySetOf (seen ++ [p]) keys := by
  refine ⟨h.nodup,fun k => ?_⟩
  rw [h.mem k,refsOf_snoc_of_ne int32Layout.read (by rw [hp]; simp)]

theorem KeySetOf.insert {seen : List (BuildRowRef × Row α)} {keys : List Int32}
    (h : KeySetOf seen keys) {key : Int32}
    (hp : int32Layout.read p.2.key = some key) : KeySetOf (seen ++ [p]) (keys.insert key) := by
  refine ⟨h.nodup.insert,fun k => ?_⟩
  rw [List.mem_insert_iff,h.mem k]
  by_cases hk : k = key
  · rw [hk,refsOf_snoc_of_eq int32Layout.read hp]
    simp
  · rw [refsOf_snoc_of_ne int32Layout.read (by rw [hp]; simpa using Ne.symm hk)]
    simp [hk]

end KeySet

section Run
variable {α : Type} (hashRowWithSalt : RowHash) (mode : HashBuildMode) (collectAllRows : Bool)
variable (batches : List (RecordBatch α)) (types : List DataType)

structure MapsInv (seen : List (BuildRowRef × Row α)) (build : HashJoinBuild α) : Prop where
  batches_eq : build.batches = batches
  keyDataTypes_eq : build.keyDataTypes = types
  allRows_eq : buildsKeySet mode types = false →
    build.allRows = if collectAllRows then seen.map Prod.fst else []
  i32 : LayoutMaps int32Layout types (mode ≠ .fastSemi) seen build.i32UniqueRows build.i32Rows
  i64 : LayoutMaps int64Layout types true seen build.i64UniqueRows build.i64Rows
  pair : LayoutMaps int32PairLayout types true seen build.i32PairUniqueRows build.i32PairRows
  string : LayoutMaps utf8Layout types true seen build.stringUniqueRows build.stringRows
  i32Unique_none : mode ≠ .fastSingleKey → build.i32UniqueRows = none
  i64Unique_none : mode ≠ .fastSingleKey → build.i64UniqueRows = none
  keySet : ∀ keys, build.i32KeySet = some keys → KeySetOf seen keys
  keySet_isSome : build.i32KeySet.isSome = buildsKeySet mode types
  general : buildsKeySet mode types = false → buildsTypedOnly mode types = false →
    GeneralMap hashRowWithSalt seen build

theorem mapsInv_init :
    MapsInv hashRowWithSalt mode collectAllRows batches types []
      (init mode batches types) where
  batches_eq := rfl
  keyDataTypes_eq := rfl
  allRows_eq _ := by cases collectAllRows <;> rfl
  i32 := by
    by_cases ht : types = [.int32]
    · subst ht
      cases mode
      · exact layoutMaps_init_multi ⟨rfl,rfl⟩
      · exact layoutMaps_init_unique ⟨rfl,rfl⟩
      · exact layoutMaps_init_none (by simp)
    · simpa [init,ht] using layoutMaps_init_none fun h => ht h.1
  i64 := by
    by_cases ht : types = [.int64]
    · subst ht
      cases mode
      · exact layoutMaps_init_multi ⟨rfl,rfl⟩
      · exact layoutMaps_init_unique ⟨rfl,rfl⟩
      · exact layoutMaps_init_multi ⟨rfl,rfl⟩
    · simpa [init,ht] using layoutMaps_init_none fun h => ht h.1
  pair := by
    by_cases ht : types = [.int32,.int32]
    · subst ht
      exact layoutMaps_init_unique ⟨rfl,rfl⟩
    · simpa [init,ofBatches,ht] using
        layoutMaps_init_none fun h => ht h.1
  string := by
    by_cases ht : types = [.utf8]
    · subst ht
      exact layoutMaps_init_unique ⟨rfl,rfl⟩
    · simpa [init,ofBatches,ht] using
        layoutMaps_init_none fun h => ht h.1
  i32Unique_none h := by simp [init,h]
  i64Unique_none h := by simp [init,h]
  keySet keys h := by
    have hk : keys = [] := by
      unfold init at h
      dsimp only at h
      split at h
      · exact (Option.some.inj h).symm
      · cases h
    subst hk
    exact ⟨List.nodup_nil,fun k => by simp⟩
  keySet_isSome := by
    unfold init buildsKeySet
    by_cases ht : types = [.int32] <;> cases mode <;> simp [ht]
  general _ _ := by
    refine ⟨fun k => rfl,BloomFilter.valid_new _,?_⟩
    intro key hk
    simp at hk

variable {hashRowWithSalt mode collectAllRows batches types} {seen : List (BuildRowRef × Row α)}
variable {build : HashJoinBuild α}

theorem buildRow_keyDataTypes {rowRef : BuildRowRef} {row : Row α} {build' : HashJoinBuild α}
    (h : buildRow hashRowWithSalt mode collectAllRows build rowRef row = .ok build') :
    build'.keyDataTypes = build.keyDataTypes := by
  unfold buildRow u32TryFrom at h
  split at h
  · split at h <;> cases h <;> rfl
  · by_cases hrow : rowRef.row < 2 ^ 32
    · rw [if_pos hrow,except_bind_ok] at h
      cases hk : row.ownedKey with
      | none =>
        rw [hk] at h
        cases collectAllRows <;> cases h <;> rfl
      | some key =>
        rw [hk] at h
        by_cases hty : buildsTypedOnly mode build.keyDataTypes = true <;> cases collectAllRows <;>
        · simp only [Bool.false_eq_true,if_false,if_true,hty] at h
          cases h
          rfl
    · rw [if_neg hrow] at h
      cases h

theorem buildRow_error (hk : build.keyDataTypes = types) (hs : buildsKeySet mode types = false)
    {rowRef : BuildRowRef} (hrow : 2 ^ 32 ≤ rowRef.row) (row : Row α) :
    ∃ e, buildRow hashRowWithSalt mode collectAllRows build rowRef row = .error e := by
  subst hk
  unfold buildRow u32TryFrom
  rw [hs,if_neg (not_lt.mpr hrow)]
  exact ⟨_,rfl⟩

theorem buildRow_keySet (h : MapsInv hashRowWithSalt mode collectAllRows batches types seen build)
    (hs : buildsKeySet mode types = true) (p : BuildRowRef × Row α) :
    ∃ build', buildRow hashRowWithSalt mode collectAllRows build p.1 p.2 = .ok build' ∧
      MapsInv hashRowWithSalt mode collectAllRows batches types (seen ++ [p]) build' := by
  obtain ⟨hm,ht⟩ : mode = .fastSemi ∧ types = [.int32] := by simpa [buildsKeySet] using hs
  -- no other layout is kept beside the set
  have hi32 := h.i32
  have hi64 := h.i64
  have hpair := h.pair
  have hstring := h.string
  have hnone32 : build.i32UniqueRows = none ∧ build.i32Rows = none := by
    have hk : ¬ (build.i32UniqueRows.isSome ∨ build.i32Rows.isSome) := fun hk => by
      simpa [hm] using (hi32.kept.mp hk).2
    simpa using hk
  have hnone64 := hi64.none_of_ne (by rw [ht]; simp [int64Layout])
  have hnonePair := hpair.none_of_ne (by rw [ht]; simp [int32PairLayout])
  have hnoneString := hstring.none_of_ne (by rw [ht]; simp [utf8Layout])
  have hrest : ∀ keys : Option (List Int32),
      (∀ ks, keys = some ks → KeySetOf (seen ++ [p]) ks) → keys.isSome = true →
      MapsInv hashRowWithSalt mode collectAllRows batches types (seen ++ [p])
        { build with i32KeySet := keys } := by
    intro keys hkeys hsome
    refine ⟨h.batches_eq,h.keyDataTypes_eq,?_,⟨?_,hi32.kept⟩,⟨?_,hi64.kept⟩,⟨?_,hpair.kept⟩,
      ⟨?_,hstring.kept⟩,h.i32Unique_none,h.i64Unique_none,hkeys,by rw [hs]; exact hsome,?_⟩
    · intro hf
      rw [hs] at hf
      cases hf
    · rw [hnone32.1,hnone32.2]
      exact mapsAnswer_none _ _
    · rw [hnone64.1,hnone64.2]
      exact mapsAnswer_none _ _
    · rw [hnonePair.1,hnonePair.2]
      exact mapsAnswer_none _ _
    · rw [hnoneString.1,hnoneString.2]
      exact mapsAnswer_none _ _
    · intro hf
      rw [hs] at hf
      cases hf
  obtain ⟨keys,hkeys⟩ := Option.isSome_iff_exists.mp (h.keySet_isSome.trans hs)
  have hs' : buildsKeySet mode build.keyDataTypes = true := by rw [h.keyDataTypes_eq,hs]
  unfold buildRow
  rw [if_pos hs']
  cases hr : int32Layout.read p.2.key with
  | none =>
    refine ⟨build,rfl,?_⟩
    have hb := hrest build.i32KeySet (fun ks hks => (h.keySet ks hks).skip hr) (by rw [hkeys]; rfl)
    exact hb
  | some value =>
    rw [hkeys]
    refine ⟨_,rfl,hrest (some (keys.insert value)) ?_ rfl⟩
    rintro ks ⟨⟩
    exact (h.keySet keys hkeys).insert hr

theorem buildRow_ok (h : MapsInv hashRowWithSalt mode collectAllRows batches types seen build)
    (hs : buildsKeySet mode types = false) {p : BuildRowRef × Row α}
    (ht : cellsMatch p.2.key types = true) (hrow : p.1.row < 2 ^ 32) :
    ∃ build', buildRow hashRowWithSalt mode collectAllRows build p.1 p.2 = .ok build' ∧
      MapsInv hashRowWithSalt mode collectAllRows batches types (seen ++ [p]) build' := by
  have hnoKeys : build.i32KeySet = none := by
    simpa [hs] using h.keySet_isSome
  have hall : (if collectAllRows then build.allRows ++ [p.1] else build.allRows) =
      if collectAllRows then (seen ++ [p]).map Prod.fst else [] := by
    rw [h.allRows_eq hs]
    cases collectAllRows <;> simp
  have hs' : ¬ buildsKeySet mode build.keyDataTypes = true := by simp [h.keyDataTypes_eq,hs]
  unfold buildRow u32TryFrom
  rw [if_neg hs',if_pos hrow,except_bind_ok]
  have hkeys : ∀ keys, build.i32KeySet = some keys → KeySetOf (seen ++ [p]) keys := by
    intro keys hk
    rw [hnoKeys] at hk
    cases hk
  cases hk : p.2.ownedKey with
  | none =>
    cases collectAllRows <;>
    · exact ⟨_,rfl,h.batches_eq,h.keyDataTypes_eq,fun _ => hall,h.i32.skip ht hk,h.i64.skip ht hk,
        h.pair.skip ht hk,h.string.skip ht hk,h.i32Unique_none,h.i64Unique_none,hkeys,
        h.keySet_isSome,
        fun _ hty => (h.general hs hty).skip hk rfl rfl⟩
  | some key =>
    have hi32 := h.i32.insertReadKey p
    have hi64 := h.i64.insertReadKey p
    have hpair := h.pair.insertReadKey p
    have hstring := h.string.insertReadKey p
    have hunique32 : mode ≠ .fastSingleKey →
        (insertReadKey int32Layout p.1 p.2 build.i32UniqueRows build.i32Rows).1 = none := by
      intro hm
      rw [h.i32Unique_none hm]
      exact insertReadKey_unique_none p
    have hunique64 : mode ≠ .fastSingleKey →
        (insertReadKey int64Layout p.1 p.2 build.i64UniqueRows build.i64Rows).1 = none := by
      intro hm
      rw [h.i64Unique_none hm]
      exact insertReadKey_unique_none p
    by_cases hty : buildsTypedOnly mode types = true
    · have hty' : buildsTypedOnly mode build.keyDataTypes = true := by rw [h.keyDataTypes_eq,hty]
      have hgen : buildsTypedOnly mode types = false →
          ∀ b : HashJoinBuild α, GeneralMap hashRowWithSalt (seen ++ [p]) b := by simp [hty]
      cases collectAllRows <;>
      · simp only [Bool.false_eq_true,if_false,if_true,hty']
        exact ⟨_,rfl,h.batches_eq,h.keyDataTypes_eq,fun _ => hall,hi32,hi64,hpair,hstring,hunique32,
          hunique64,hkeys,h.keySet_isSome,fun _ hf => hgen hf _⟩
    · have hty' : ¬ buildsTypedOnly mode build.keyDataTypes = true := by rwa [h.keyDataTypes_eq]
      have hg := h.general hs (by simpa using hty)
      cases collectAllRows <;>
      · simp only [Bool.false_eq_true,if_false,if_true,hty']
        exact ⟨_,rfl,h.batches_eq,h.keyDataTypes_eq,fun _ => hall,hi32,hi64,hpair,hstring,hunique32,
          hunique64,hkeys,h.keySet_isSome,fun _ _ => hg.insert hk rfl rfl⟩

variable (hashRowWithSalt mode collectAllRows)

theorem buildHashMaps_eq (keys : List String) (ht : Typed types batches) :
    buildHashMaps hashRowWithSalt batches keys mode collectAllRows types =
      ((rowRefs batches).foldlM
        (fun build p => buildRow hashRowWithSalt mode collectAllRows build p.1 p.2)
        (init mode batches types) >>= finish) := by
  rw [← forEachRow_eq]
  unfold buildHashMaps forEachRow
  congr 1
  refine foldlM_congr ?_ _
  rintro ⟨batch,i⟩ hb build
  have hm : batch ∈ batches := List.fst_mem_of_mem_zipIdx hb
  rw [checkBuildKeyTypes,if_pos (ht batch hm)]
  rfl

theorem buildRows_ok (ht : Typed types batches)
    (ha : buildsKeySet mode types = true ∨ Addressable batches) :
    ∃ build, (rowRefs batches).foldlM
        (fun build p => buildRow hashRowWithSalt mode collectAllRows build p.1 p.2)
        (init mode batches types) = .ok build ∧
      MapsInv hashRowWithSalt mode collectAllRows batches types (rowRefs batches) build := by
  refine foldlM_total (MapsInv hashRowWithSalt mode collectAllRows batches types)
    (mapsInv_init hashRowWithSalt mode collectAllRows batches types) ?_
  intro seen p rest build hl hinv
  have hp : p ∈ rowRefs batches := by
    rw [hl]
    simp
  by_cases hs : buildsKeySet mode types = true
  · exact buildRow_keySet hinv hs p
  · have hs' : buildsKeySet mode types = false := by simpa using hs
    exact buildRow_ok hinv hs' (ht.cellsMatch hp) ((ha.resolve_left hs).row_lt hp)

theorem buildRows_error (hs : buildsKeySet mode types = false)
    (ha : ¬ Addressable batches) :
    ∃ e, (rowRefs batches).foldlM
        (fun build p => buildRow hashRowWithSalt mode collectAllRows build p.1 p.2)
        (init mode batches types) = .error e := by
  obtain ⟨p,hp,hrow⟩ := exists_of_not_addressable ha
  refine foldlM_error (fun build => build.keyDataTypes = types) ?_ hp ?_ rfl
  · intro build p build' hk h
    rw [buildRow_keyDataTypes h,hk]
  · intro build hk
    exact buildRow_error hk hs hrow p.2

end Run
end Dodam.Execution
