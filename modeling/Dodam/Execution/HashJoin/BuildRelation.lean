import Dodam.Execution.HashJoin.BuildCorrect
import Dodam.Execution.HashJoin.Matches

/-! # The relation of a build

A build carries its rows in one or more layouts. Each of them, asked with a key without a NULL,
gives the rows with that key in the order of the input; a key set says whether there is one.
-/
namespace Dodam.Execution
open Foundation

section Relations
variable {α : Type}

/-- The rows that a typed layout gives for the key cells of a probe row. -/
def keyedFind {κ : Type} (layout : KeyLayout κ) (find : κ → Option (List BuildRowRef)) (key : List (Option KeyValue)) :
    List BuildRowRef :=
  ((layout.read key).bind find).getD []

def uniqueFind {κ : Type} (find : κ → Option BuildRowRef) (key : κ) : Option (List BuildRowRef) :=
  (find key).map fun rowRef => [rowRef]

namespace HashJoinBuild

/-- The typed layouts that a build carries, as what they give for a key. -/
def typedRelations (build : HashJoinBuild α) : List (List (Option KeyValue) → List BuildRowRef) :=
  List.reduceOption
    [build.i32DenseUniqueRows.map fun rows => keyedFind int32Layout (uniqueFind (DenseI32BuildRows.get rows)),
     build.i32UniqueRows.map fun rows => keyedFind int32Layout (uniqueFind rows.lookup),
     build.i32DenseRows.map fun rows => keyedFind int32Layout (DenseI32MultiBuildRows.get rows),
     build.i32Rows.map fun rows => keyedFind int32Layout rows.lookup,
     build.i64DenseUniqueRows.map fun rows => keyedFind int64Layout (uniqueFind (DenseI64BuildRows.get rows)),
     build.i64UniqueRows.map fun rows => keyedFind int64Layout (uniqueFind rows.lookup),
     build.i64Rows.map fun rows => keyedFind int64Layout rows.lookup,
     build.i32PairDenseUniqueRows.map fun rows => keyedFind int32PairLayout (uniqueFind rows.get),
     build.i32PairUniqueRows.map fun rows => keyedFind int32PairLayout (uniqueFind rows.lookup),
     build.i32PairRows.map fun rows => keyedFind int32PairLayout rows.lookup,
     build.stringUniqueRows.map fun rows => keyedFind utf8Layout (uniqueFind rows.lookup),
     build.stringRows.map fun rows => keyedFind utf8Layout rows.lookup]

/-- The rows behind the Bloom filter, normal and heavy. -/
def generalRelation (hashRowWithSalt : RowHash) (build : HashJoinBuild α) (key : List (Option KeyValue)) :
    List BuildRowRef :=
  ((ownedKey key).bind (build.findRow hashRowWithSalt)).getD []

/-- The layouts that a build of a mode carries: the rows are not kept by key if only typed maps or a key set are built. -/
def relations (hashRowWithSalt : RowHash) (mode : HashBuildMode) (build : HashJoinBuild α) :
    List (List (Option KeyValue) → List BuildRowRef) :=
  if buildsKeySet mode build.keyDataTypes || buildsTypedOnly mode build.keyDataTypes then build.typedRelations
  else build.typedRelations ++ [build.generalRelation hashRowWithSalt]

def keySets (build : HashJoinBuild α) : List (List (Option KeyValue) → Bool) :=
  List.reduceOption
    [build.i32DenseKeySet.map fun keys key => (int32Layout.read key).any keys.contains,
     build.i32KeySet.map fun keys key => (int32Layout.read key).any fun key => decide (key ∈ keys)]

end HashJoinBuild

def rowsWithKey (batches : List (RecordBatch α)) (key : List (Option KeyValue)) : List BuildRowRef :=
  ((rowRefs batches).filter fun p => p.2.key = key).map Prod.fst

def NonNullKey (types : List DataType) (key : List (Option KeyValue)) : Prop :=
  cellsMatch key types = true ∧ ∀ cell ∈ key, cell ≠ none

variable {types : List DataType} {batches : List (RecordBatch α)} {key : List (Option KeyValue)}

theorem ownedKey_nonNull (h : ∀ cell ∈ key, cell ≠ none) : ownedKey key = some key.reduceOption := by
  refine if_neg fun hnull => ?_
  obtain ⟨cell,hcell,hnone⟩ := List.any_eq_true.mp hnull
  exact h cell hcell (Option.isNone_iff_eq_none.mp hnone)

theorem ownedKey_eq_iff {key' : List (Option KeyValue)} (h : ∀ cell ∈ key, cell ≠ none) :
    ownedKey key' = some key.reduceOption ↔ key' = key := by
  constructor
  · intro heq
    have hall : ∀ cell ∈ key', cell ≠ none := by
      rintro _ hcell rfl
      rw [ownedKey,if_pos (List.any_eq_true.mpr ⟨none,hcell,rfl⟩)] at heq
      cases heq
    have hmap : ∀ l : List (Option KeyValue), (∀ cell ∈ l, cell ≠ none) → l.reduceOption.map some = l := by
      intro l hl
      induction l with
      | nil => rfl
      | cons cell l ih =>
        have hrest := ih fun cell hcell => hl cell (List.mem_cons_of_mem _ hcell)
        cases cell with
        | none => exact absurd rfl (hl none List.mem_cons_self)
        | some value => rw [List.reduceOption_cons_of_some,List.map_cons,hrest]
    rw [ownedKey_nonNull hall,Option.some.injEq] at heq
    rw [← hmap key h,← heq,hmap key' hall]
  · rintro rfl
    exact ownedKey_nonNull h

variable {κ : Type} {layout : KeyLayout κ} {hashRowWithSalt : RowHash} {mode : HashBuildMode}
variable {collectAllRows : Bool} {build : HashJoinBuild α}

theorem read_eq_iff {k : κ} {row : Row α} (htypes : types = layout.types)
    (hkey : NonNullKey types key) (hk : layout.read key = some k) (hrow : cellsMatch row.key types = true) :
    layout.read row.key = some k ↔ row.key = key := by
  have hembed := layout.ownedKey_eq key (htypes ▸ hkey.1)
  rw [ownedKey_nonNull hkey.2,hk,Option.map_some,Option.some.injEq] at hembed
  rw [← ownedKey_eq_iff hkey.2,layout.ownedKey_eq row.key (htypes ▸ hrow),hembed,Option.map_eq_some_iff]
  constructor
  · intro h
    exact ⟨k,h,rfl⟩
  · rintro ⟨k',hk',heq⟩
    rw [hk',layout.embed_injective heq]

theorem exists_read (htypes : types = layout.types) (hkey : NonNullKey types key) :
    ∃ k, layout.read key = some k := by
  have hembed := layout.ownedKey_eq key (htypes ▸ hkey.1)
  rw [ownedKey_nonNull hkey.2] at hembed
  obtain ⟨k,hk,-⟩ := Option.map_eq_some_iff.mp hembed.symm
  exact ⟨k,hk⟩

theorem refsOf_eq_rowsWithKey [DecidableEq κ] {k : κ} (htypes : types = layout.types)
    (ht : Typed types batches) (hkey : NonNullKey types key) (hk : layout.read key = some k) :
    refsOf layout.read (rowRefs batches) k = rowsWithKey batches key := by
  refine congrArg (List.map Prod.fst) (List.filter_congr fun p hp => ?_)
  rw [decide_eq_decide]
  exact read_eq_iff htypes hkey hk (ht.cellsMatch hp)

theorem Serves.keyedFind [DecidableEq κ] {find : κ → Option (List BuildRowRef)}
    (h : Serves layout types (rowRefs batches) find) (ht : Typed types batches) (hkey : NonNullKey types key) :
    Execution.keyedFind layout find key = rowsWithKey batches key := by
  obtain ⟨k,hk⟩ := exists_read h.types_eq hkey
  rw [Execution.keyedFind,hk,Option.bind_some,h.answers k,getD_nonEmpty,refsOf_eq_rowsWithKey h.types_eq ht hkey hk]

theorem ServesSet.contains_iff_rows {contains : Int32 → Bool} (h : ServesSet types (rowRefs batches) contains)
    (ht : Typed types batches) (hkey : NonNullKey types key) :
    (int32Layout.read key).any contains = true ↔ rowsWithKey batches key ≠ [] := by
  obtain ⟨k,hk⟩ := @exists_read _ _ _ int32Layout h.types_eq hkey
  rw [hk,Option.any_some,h.contains_iff,refsOf_eq_rowsWithKey h.types_eq ht hkey hk]

theorem HashJoinBuild.Valid.relation (h : build.Valid hashRowWithSalt mode collectAllRows batches types) (ht : Execution.Typed types batches)
    (hkey : NonNullKey types key) {find : List (Option KeyValue) → List BuildRowRef}
    (hfind : find ∈ build.relations hashRowWithSalt mode) : find key = rowsWithKey batches key := by
  have htyped : ∀ find ∈ build.typedRelations, find key = rowsWithKey batches key := by
    intro find hfind
    rw [typedRelations,List.reduceOption_mem_iff] at hfind
    simp only [List.mem_cons,List.not_mem_nil,or_false,eq_comm (a := some find),Option.map_eq_some_iff] at hfind
    rcases hfind with ⟨d,hd,rfl⟩ | ⟨m,hm,rfl⟩ | ⟨d,hd,rfl⟩ | ⟨m,hm,rfl⟩ | ⟨d,hd,rfl⟩ | ⟨m,hm,rfl⟩ | ⟨m,hm,rfl⟩ | ⟨d,hd,rfl⟩ |
      ⟨m,hm,rfl⟩ | ⟨m,hm,rfl⟩ | ⟨m,hm,rfl⟩ | ⟨m,hm,rfl⟩
    · exact (h.i32DenseUnique d hd).serves.keyedFind ht hkey
    · exact (h.i32Unique m hm).keyedFind ht hkey
    · exact (h.i32Dense d hd).keyedFind ht hkey
    · exact (h.i32 m hm).keyedFind ht hkey
    · exact (h.i64DenseUnique d hd).keyedFind ht hkey
    · exact (h.i64Unique m hm).keyedFind ht hkey
    · exact (h.i64 m hm).keyedFind ht hkey
    · exact (h.pairDenseUnique d hd).keyedFind ht hkey
    · exact (h.pairUnique m hm).keyedFind ht hkey
    · exact (h.pair m hm).keyedFind ht hkey
    · exact (h.stringUnique m hm).keyedFind ht hkey
    · exact (h.string m hm).keyedFind ht hkey
  rw [relations,h.keyDataTypes_eq] at hfind
  split_ifs at hfind with honly
  · exact htyped find hfind
  · rcases List.mem_append.mp hfind with hfind | hfind
    · exact htyped find hfind
    · obtain rfl := List.mem_singleton.mp hfind
      rw [Bool.not_eq_true,Bool.or_eq_false_iff] at honly
      have hrows : Serves (rowLayout types) types (rowRefs batches) (build.findRow hashRowWithSalt) :=
        ⟨rfl,h.general honly.1 honly.2⟩
      exact hrows.keyedFind ht hkey

theorem HashJoinBuild.typedRelations_ne_nil (h : build.Typed) : build.typedRelations ≠ [] := by
  intro hnone
  rw [typedRelations,List.reduceOption,List.filterMap_eq_nil_iff] at hnone
  simp only [List.forall_mem_cons,id_eq,Option.map_eq_none_iff] at hnone
  simp [Typed,hnone] at h

theorem HashJoinBuild.Valid.keySet_iff (h : build.Valid hashRowWithSalt mode collectAllRows batches types) (ht : Execution.Typed types batches)
    (hkey : NonNullKey types key) {contains : List (Option KeyValue) → Bool} (hcontains : contains ∈ build.keySets) :
    contains key = true ↔ rowsWithKey batches key ≠ [] := by
  rw [keySets,List.reduceOption_mem_iff] at hcontains
  simp only [List.mem_cons,List.not_mem_nil,or_false,eq_comm (a := some contains),Option.map_eq_some_iff] at hcontains
  rcases hcontains with ⟨d,hd,rfl⟩ | ⟨keys,hkeys,rfl⟩
  · exact (h.denseKeySet d hd).contains_iff_rows ht hkey
  · exact (h.keySet keys hkeys).contains_iff_rows ht hkey

theorem HashJoinBuild.Valid.carries (h : build.Valid hashRowWithSalt mode collectAllRows batches types) :
    if buildsKeySet mode types then build.keySets ≠ [] else build.relations hashRowWithSalt mode ≠ [] := by
  split_ifs with hset
  · obtain ⟨keys,hkeys⟩ := Option.isSome_iff_exists.mp (h.keySet_isSome.trans hset)
    refine List.ne_nil_of_mem (a := fun key => (int32Layout.read key).any fun key => decide (key ∈ keys)) ?_
    rw [keySets,List.reduceOption_mem_iff,hkeys]
    exact List.mem_cons_of_mem _ List.mem_cons_self
  · rw [relations,h.keyDataTypes_eq]
    split_ifs with honly
    · rw [Bool.not_eq_true] at hset
      rw [hset,Bool.false_or] at honly
      exact typedRelations_ne_nil (h.typed honly)
    · exact List.append_ne_nil_of_right_ne_nil _ (List.cons_ne_nil _ _)

end Relations
section Types
variable {α : Type} {hashRowWithSalt : RowHash} {batches : List (RecordBatch α)} {keys : List String} {types : List DataType}

theorem eq_of_find?_differs {types' : List DataType} (hlength : types.length = keys.length) (hlength' : types'.length = keys.length)
    (h : ((keys.zip (types'.zip types)).find? fun key => key.2.1 ≠ key.2.2) = none) : types' = types := by
  refine List.ext_getElem (hlength'.trans hlength.symm) fun i hi hi' => ?_
  have hzip : i < (keys.zip (types'.zip types)).length := by
    rw [List.length_zip,List.length_zip]
    omega
  have hsame := List.find?_eq_none.mp h _ (List.getElem_mem hzip)
  rw [List.getElem_zip,List.getElem_zip] at hsame
  simpa using hsame

variable {mode : HashBuildMode} {collectAllRows : Bool} {build : HashJoinBuild α}

theorem checkBuildKeyTypes_error {batch : RecordBatch α} (hlength : types.length = keys.length)
    (hbatch : batch.keyTypes.length = keys.length) (hne : batch.keyTypes ≠ types) :
    ∃ e, checkBuildKeyTypes mode keys types batch = .error e := by
  unfold checkBuildKeyTypes
  rw [if_neg hne]
  split_ifs with hread
  · exact ⟨_,rfl⟩
  · cases hfind : (keys.zip (batch.keyTypes.zip types)).find? fun key => key.2.1 ≠ key.2.2 with
    | none => exact absurd (eq_of_find?_differs hlength hbatch hfind) hne
    | some key => exact ⟨_,rfl⟩

theorem typed_of_buildHashMaps
    (hkeys : ∀ batch ∈ batches, batch.keyTypes.length = keys.length) (hlength : types.length = keys.length)
    (h : buildHashMaps hashRowWithSalt batches keys mode collectAllRows types = .ok build) : Typed types batches := by
  intro batch hbatch
  by_contra hne
  obtain ⟨i,hi⟩ := List.mem_iff_getElem?.mp hbatch
  have hindexed : (batch,i) ∈ batches.zipIdx := List.mem_zipIdx_iff_getElem?.mpr hi
  obtain ⟨e,he⟩ := foldlM_error (fun _ => True) (fun _ _ _ _ _ => trivial)
    (f := fun build (batch : RecordBatch α × ℕ) => do
      checkBuildKeyTypes mode keys types batch.1
      batch.1.rows.zipIdx.foldlM (fun build row => buildRow hashRowWithSalt mode collectAllRows build ⟨batch.2,row.2⟩ row.1) build)
    hindexed (fun build _ => by
      obtain ⟨e,he⟩ := @checkBuildKeyTypes_error _ _ _ mode batch hlength (hkeys batch hbatch) hne
      exact ⟨e,by rw [he]; rfl⟩) (s := HashJoinBuild.init mode batches types) trivial
  rw [buildHashMaps,he] at h
  cases h

theorem foldlM_none {σ β : Type} {f : Option σ → β → Result (Option σ)} (hf : ∀ b, f none b = .ok none) (l : List β) :
    l.foldlM f none = .ok none := by
  induction l with
  | nil => rfl
  | cons b l ih => rw [List.foldlM_cons,hf]; exact ih

theorem foldlM_eq_some {σ β : Type} {f : Option σ → β → Result (Option σ)} {P : β → Prop} (hf : ∀ b, f none b = .ok none)
    (hstep : ∀ s b s', f (some s) b = .ok (some s') → P b) {l : List β} {s s' : σ} (h : l.foldlM f (some s) = .ok (some s')) :
    ∀ b ∈ l, P b := by
  induction l generalizing s with
  | nil => nofun
  | cons b l ih =>
    rw [List.foldlM_cons] at h
    obtain ⟨next,hnext,hrest⟩ := except_bind_eq_ok.mp h
    cases next with
    | none =>
      rw [foldlM_none hf] at hrest
      cases hrest
    | some next =>
      intro b' hb'
      rcases List.mem_cons.mp hb' with rfl | hb'
      · exact hstep s b' next hnext
      · exact ih hrest b' hb'

theorem typed_of_indexed (h : ∀ batch ∈ batches.zipIdx, batch.1.keyTypes = types) : Typed types batches := by
  intro batch hbatch
  obtain ⟨i,hi⟩ := List.mem_iff_getElem?.mp hbatch
  exact h (batch,i) (List.mem_zipIdx_iff_getElem?.mpr hi)

theorem typed_of_tryBuildDenseI32
    (h : tryBuildDenseI32HashJoinInput batches collectAllRows = .ok (some build)) : Typed [.int32] batches := by
  obtain ⟨scan,hscan,hrest⟩ := except_bind_eq_ok.mp h
  cases scan with
  | none => cases hrest
  | some scan =>
    refine typed_of_indexed (foldlM_eq_some (fun _ => rfl) (fun scan batch scan' hstep => ?_) hscan)
    by_contra hne
    dsimp only at hstep
    rw [if_pos hne] at hstep
    cases hstep

theorem typed_of_tryBuildDenseI32Pair
    (h : tryBuildDenseI32PairHashJoinInput batches collectAllRows = .ok (some build)) : Typed [.int32,.int32] batches := by
  obtain ⟨scan,hscan,hrest⟩ := except_bind_eq_ok.mp h
  cases scan with
  | none => cases hrest
  | some scan =>
    refine typed_of_indexed (foldlM_eq_some (fun _ => rfl) (fun scan batch scan' hstep => ?_) hscan)
    by_contra hne
    dsimp only at hstep
    rw [if_pos hne] at hstep
    cases hstep

theorem typed_of_buildHashJoinInput {first : RecordBatch α}
    (hfirst : batches.head? = some first) (hkeys : ∀ batch ∈ batches, batch.keyTypes.length = keys.length)
    (h : buildHashJoinInput hashRowWithSalt batches keys mode collectAllRows = .ok build) :
    keys ≠ [] ∧ Typed first.keyTypes batches := by
  cases batches with
  | nil => cases hfirst
  | cons batch batches =>
    cases hfirst
    have hmaps : ∀ build, buildHashMaps hashRowWithSalt (first :: batches) keys mode collectAllRows first.keyTypes = .ok build →
        Typed first.keyTypes (first :: batches) := fun _ =>
      typed_of_buildHashMaps hkeys (hkeys first List.mem_cons_self)
    rw [buildHashJoinInput] at h
    split_ifs at h with hnone hi32 hpair
    · cases h
    · refine ⟨by simpa using hnone,?_⟩
      obtain ⟨attempt,hattempt,hrest⟩ := except_bind_eq_ok.mp h
      cases attempt with
      | none => exact hmaps build hrest
      | some dense => exact hi32.2 ▸ typed_of_tryBuildDenseI32 hattempt
    · refine ⟨by simpa using hnone,?_⟩
      obtain ⟨attempt,hattempt,hrest⟩ := except_bind_eq_ok.mp h
      cases attempt with
      | none => exact hmaps build hrest
      | some dense => exact hpair.2 ▸ typed_of_tryBuildDenseI32Pair hattempt
    · exact ⟨by simpa using hnone,hmaps build h⟩

end Types
section Claim
variable {α : Type} (hashRowWithSalt : RowHash) (batches : List (RecordBatch α)) (keys : List String) (mode : HashBuildMode)
  (collectAllRows : Bool)

/-- A build comes to be exactly for batches of one type whose rows can be referenced, unless a dense array overflows; then
every layout it carries gives, for every key without a NULL, the rows with that key in build order, every key set says
whether there is one, and it carries one of them. -/
theorem buildHashJoinInput_relation (hkeys : ∀ batch ∈ batches, batch.keyTypes.length = keys.length) :
    ((∃ build, buildHashJoinInput hashRowWithSalt batches keys mode collectAllRows = .ok build) ↔
        keys ≠ [] ∧ ∃ first, batches.head? = some first ∧ Typed first.keyTypes batches ∧ Referable mode first.keyTypes batches ∧
          ¬DenseOverflow first.keyTypes batches) ∧
      ∀ build, buildHashJoinInput hashRowWithSalt batches keys mode collectAllRows = .ok build →
        (∀ key, NonNullKey build.keyDataTypes key →
          (∀ find ∈ build.relations hashRowWithSalt mode, find key = rowsWithKey batches key) ∧
            ∀ contains ∈ build.keySets, (contains key = true ↔ rowsWithKey batches key ≠ [])) ∧
        if buildsKeySet mode build.keyDataTypes then build.keySets ≠ [] else build.relations hashRowWithSalt mode ≠ [] := by
  have hproduced : ∀ build, buildHashJoinInput hashRowWithSalt batches keys mode collectAllRows = .ok build →
      keys ≠ [] ∧ ∃ first, batches.head? = some first ∧ Typed first.keyTypes batches ∧
        Referable mode first.keyTypes batches ∧ ¬DenseOverflow first.keyTypes batches := by
    intro build hbuild
    cases hbatches : batches with
    | nil =>
      rw [hbatches] at hbuild
      cases hbuild
    | cons first rest =>
      obtain ⟨hne,ht⟩ := @typed_of_buildHashJoinInput _ _ _ _ _ _ _ first (by rw [hbatches]; rfl) hkeys hbuild
      rw [← hbatches]
      refine ⟨hne,first,by rw [hbatches]; rfl,ht,?_⟩
      by_contra hnot
      obtain ⟨e,he⟩ := buildHashJoinInput_error hashRowWithSalt mode collectAllRows (by rw [hbatches]; exact List.cons_ne_nil _ _) hne ht
        (by tauto)
      rw [he] at hbuild
      cases hbuild
  have hvalid : ∀ first, batches.head? = some first → keys ≠ [] → Typed first.keyTypes batches →
      Referable mode first.keyTypes batches → ¬DenseOverflow first.keyTypes batches →
        ∃ build, buildHashJoinInput hashRowWithSalt batches keys mode collectAllRows = .ok build ∧
          build.Valid hashRowWithSalt mode collectAllRows batches first.keyTypes := by
    intro first hfirst hne ht href hover
    have hbatches : batches ≠ [] := by
      rintro rfl
      cases hfirst
    obtain ⟨build,hbuild,hvalid,-⟩ := buildHashJoinInput_ok hashRowWithSalt mode collectAllRows hbatches hne ht href hover
    exact ⟨build,hbuild,hvalid⟩
  refine ⟨⟨fun ⟨build,hbuild⟩ => hproduced build hbuild,fun ⟨hne,first,hfirst,ht,href,hover⟩ => ?_⟩,fun build hbuild => ?_⟩
  · obtain ⟨build,hbuild,-⟩ := hvalid first hfirst hne ht href hover
    exact ⟨build,hbuild⟩
  · obtain ⟨hne,first,hfirst,ht,href,hover⟩ := hproduced build hbuild
    obtain ⟨build',hbuild',h⟩ := hvalid first hfirst hne ht href hover
    rw [hbuild] at hbuild'
    cases hbuild'
    rw [h.keyDataTypes_eq]
    exact ⟨fun key hkey => ⟨fun find hfind => h.relation ht hkey hfind,fun contains hcontains => h.keySet_iff ht hkey hcontains⟩,
      h.carries⟩

end Claim

/-- A row with the key 7 and one with a NULL. -/
def sevenBatch : RecordBatch Unit := ⟨[.int32],[⟨[some (.int32 7)],()⟩,⟨[none],()⟩],by decide⟩

/-- The build of two such batches gives both rows for the key 7. -/
theorem buildHashJoinInput_relation_seven :
    ∃ build, buildHashJoinInput (fun _ _ => 0) [sevenBatch,sevenBatch] ["k"] .fastSingleKey false = .ok build ∧
      ∀ find ∈ build.relations (fun _ _ => 0) .fastSingleKey, find [some (.int32 7)] = [⟨0,0⟩,⟨1,0⟩] := by
  obtain ⟨hproduced,hrelation⟩ := buildHashJoinInput_relation (fun _ _ => 0) [sevenBatch,sevenBatch] ["k"] .fastSingleKey false
    (by decide)
  have htypes : (buildHashJoinInput (fun _ _ => 0) [sevenBatch,sevenBatch] ["k"] .fastSingleKey false).map (·.keyDataTypes) =
      .ok [.int32] := by rfl
  obtain ⟨build,hbuild⟩ : ∃ build, buildHashJoinInput (fun _ _ => 0) [sevenBatch,sevenBatch] ["k"] .fastSingleKey false = .ok build :=
    hproduced.mpr ⟨by decide,sevenBatch,rfl,by simp [Typed],.inr (by simp [Addressable,RecordBatch.numRows,sevenBatch]),
      by unfold DenseOverflow; decide⟩
  rw [hbuild] at htypes
  have hkey : NonNullKey build.keyDataTypes [some (.int32 7)] := by
    rw [show build.keyDataTypes = [.int32] from Except.ok.inj htypes]
    exact ⟨rfl,by simp⟩
  exact ⟨build,hbuild,fun find hfind => ((hrelation build hbuild).1 _ hkey).1 find hfind⟩

end Dodam.Execution
