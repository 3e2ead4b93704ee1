import Dodam.Execution.HashJoin.PairAttempt

/-! # A build answers for its input

`build_hash_join_input` on batches of one type: it fails exactly where a row
index does not fit a reference or a dense array overflows, and otherwise every
layout it returns answers for all rows.
-/
namespace Dodam.Execution
open Foundation

variable {α : Type} {hashRowWithSalt : RowHash} {batches : List (RecordBatch α)}
variable {keys : List String} {types : List DataType}

/-- One Int32 column whose keys are distinct and close enough for an array. -/
def DenseUniqueKeys (types : List DataType) (batches : List (RecordBatch α)) : Prop :=
  types = [.int32] ∧ int32Keys (inputRows batches) ≠ [] ∧ (int32Keys (inputRows batches)).Nodup ∧
    keySpan (int32Keys (inputRows batches)) ≤ denseWidthLimit (totalRows batches)

/-- The rows can all be referenced, or only a key set is built. -/
def Referable (mode : HashBuildMode) (types : List DataType) (batches : List (RecordBatch α)) : Prop :=
  buildsKeySet mode types = true ∨ Addressable batches

variable (hashRowWithSalt) in
theorem buildHashMaps_ok (mode : HashBuildMode) (collectAllRows : Bool) (keys : List String)
    (ht : Typed types batches) (ha : Referable mode types batches)
    (hrefused : mode = .fastSingleKey → types = [.int32] → int32Keys (inputRows batches) = [] ∨
      denseWidthLimit (totalRows batches) < keySpan (int32Keys (inputRows batches)))
    (ho : ¬ DenseOverflow types batches) :
    ∃ build, buildHashMaps hashRowWithSalt batches keys mode collectAllRows types = .ok build ∧
      build.Valid hashRowWithSalt mode collectAllRows batches types ∧
      build.i32DenseUniqueRows = none := by
  obtain ⟨maps,hmaps,hinv⟩ := buildRows_ok hashRowWithSalt mode collectAllRows ht ha
  rw [buildHashMaps_eq hashRowWithSalt mode collectAllRows keys ht,hmaps]
  exact finish_ok hinv hrefused ho

theorem buildHashMaps_error (mode : HashBuildMode) (collectAllRows : Bool) (keys : List String)
    (ht : Typed types batches)
    (h : ¬ Referable mode types batches ∨ mode ≠ .fastSingleKey ∧ DenseOverflow types batches) :
    ∃ e, buildHashMaps hashRowWithSalt batches keys mode collectAllRows types = .error e := by
  rw [buildHashMaps_eq hashRowWithSalt mode collectAllRows keys ht]
  by_cases ha : Referable mode types batches
  · obtain ⟨hmode,ho⟩ := h.resolve_left (not_not.mpr ha)
    obtain ⟨maps,hmaps,hinv⟩ := buildRows_ok hashRowWithSalt mode collectAllRows ht ha
    rw [hmaps]
    exact finish_error hinv hmode ho
  · rw [Referable,not_or] at ha
    obtain ⟨e,he⟩ := buildRows_error hashRowWithSalt mode collectAllRows
      (by simpa using ha.1) ha.2
    rw [he]
    exact ⟨e,rfl⟩

theorem buildHashJoinInput_eq (mode : HashBuildMode) (collectAllRows : Bool) (hne : batches ≠ [])
    (hkeys : keys ≠ []) (ht : Typed types batches) :
    buildHashJoinInput hashRowWithSalt batches keys mode collectAllRows =
      if mode = .fastSingleKey ∧ types = [.int32] then do
        match ← tryBuildDenseI32HashJoinInput batches collectAllRows with
        | some build => return build
        | none => buildHashMaps hashRowWithSalt batches keys mode collectAllRows types
      else if mode = .fastSingleKey ∧ types = [.int32,.int32] then do
        match ← tryBuildDenseI32PairHashJoinInput batches collectAllRows with
        | some build => return build
        | none => buildHashMaps hashRowWithSalt batches keys mode collectAllRows types
      else buildHashMaps hashRowWithSalt batches keys mode collectAllRows types := by
  cases batches with
  | nil => exact absurd rfl hne
  | cons first rest =>
    have hk : ¬ keys.isEmpty = true := by simpa using hkeys
    unfold buildHashJoinInput
    simp only [if_neg hk,ht first List.mem_cons_self] <;> rfl

theorem referable_fastSingleKey (ha : Referable .fastSingleKey types batches) : Addressable batches :=
  ha.resolve_left (by simp [buildsKeySet])

variable (hashRowWithSalt) in
/-- A build that does not fail is valid; it is a dense array of single references exactly when
the mode allows it and the keys are distinct. -/
theorem buildHashJoinInput_ok (mode : HashBuildMode) (collectAllRows : Bool) (hne : batches ≠ [])
    (hkeys : keys ≠ []) (ht : Typed types batches) (ha : Referable mode types batches)
    (ho : ¬ DenseOverflow types batches) :
    ∃ build, buildHashJoinInput hashRowWithSalt batches keys mode collectAllRows = .ok build ∧
      build.Valid hashRowWithSalt mode collectAllRows batches types ∧
      (build.i32DenseUniqueRows.isSome ↔
        mode = .fastSingleKey ∧ DenseUniqueKeys types batches) := by
  rw [buildHashJoinInput_eq mode collectAllRows hne hkeys ht]
  split_ifs with h32 hpair
  · obtain ⟨rfl,rfl⟩ := h32
    have had := referable_fastSingleKey ha
    by_cases hrefused : int32Keys (inputRows batches) = [] ∨
        denseWidthLimit (totalRows batches) < keySpan (int32Keys (inputRows batches))
    · rw [tryBuildDenseI32_none ht had hrefused]
      obtain ⟨build,hb,hv,hn⟩ := buildHashMaps_ok hashRowWithSalt .fastSingleKey collectAllRows keys ht ha (fun _ _ => hrefused) ho
      refine ⟨build,hb,hv,?_⟩
      rw [hn]
      refine iff_of_false (by simp) ?_
      rintro ⟨-,-,h1,-,h2⟩
      exact hrefused.elim h1 (by omega)
    · rw [not_or,not_lt] at hrefused
      have hs : keySpan (int32Keys (inputRows batches)) ≤ 2 ^ 31 := by
        by_contra hgt
        exact ho ⟨rfl,by omega,hrefused.2⟩
      obtain ⟨build,hb,hv,hn⟩ := tryBuildDenseI32_some hashRowWithSalt
        collectAllRows ht had hrefused.1 hrefused.2 hs
      refine ⟨build,by rw [hb]; rfl,hv,hn.trans ?_⟩
      constructor
      · intro hd
        exact ⟨rfl,rfl,hrefused.1,hd,hrefused.2⟩
      · rintro ⟨-,-,-,hd,-⟩
        exact hd
  · obtain ⟨rfl,rfl⟩ := hpair
    have had := referable_fastSingleKey ha
    have hnot : ¬ (HashBuildMode.fastSingleKey = .fastSingleKey ∧
        DenseUniqueKeys [DataType.int32,.int32] batches) := fun h => h32 ⟨rfl,h.2.1⟩
    obtain ⟨o,ho',hv⟩ := tryBuildDenseI32Pair_ok hashRowWithSalt collectAllRows ht had
    rw [ho',except_bind_ok]
    cases o with
    | some build =>
      obtain ⟨hv,hn⟩ := hv build rfl
      exact ⟨build,rfl,hv,by rw [hn]; exact iff_of_false (by simp) hnot⟩
    | none =>
      obtain ⟨build,hb,hv,hn⟩ := buildHashMaps_ok hashRowWithSalt .fastSingleKey collectAllRows keys ht ha (fun _ h => by simp at h) ho
      exact ⟨build,hb,hv,by rw [hn]; exact iff_of_false (by simp) hnot⟩
  · obtain ⟨build,hb,hv,hn⟩ := buildHashMaps_ok hashRowWithSalt mode collectAllRows
      keys ht ha (fun hm h => absurd ⟨hm,h⟩ h32) ho
    refine ⟨build,hb,hv,?_⟩
    rw [hn]
    exact iff_of_false (by simp) fun h => h32 ⟨h.1,h.2.1⟩

variable (hashRowWithSalt) in
theorem buildHashJoinInput_error (mode : HashBuildMode) (collectAllRows : Bool) (hne : batches ≠ [])
    (hkeys : keys ≠ []) (ht : Typed types batches)
    (h : ¬ Referable mode types batches ∨ DenseOverflow types batches) :
    ∃ e, buildHashJoinInput hashRowWithSalt batches keys mode collectAllRows = .error e := by
  rw [buildHashJoinInput_eq mode collectAllRows hne hkeys ht]
  split_ifs with h32 hpair
  · obtain ⟨rfl,rfl⟩ := h32
    have h' : ¬ Addressable batches ∨ DenseOverflow [.int32] batches :=
      h.imp_left fun hr ha => hr (Or.inr ha)
    obtain ⟨e,he⟩ := tryBuildDenseI32_error collectAllRows ht h'
    rw [he]
    exact ⟨e,rfl⟩
  · obtain ⟨rfl,rfl⟩ := hpair
    have had : ¬ Addressable batches := by
      rcases h with h | h
      · exact fun ha => h (Or.inr ha)
      · exact absurd h.1 (by simp)
    obtain ⟨e,he⟩ := tryBuildDenseI32Pair_error collectAllRows ht had
    rw [he]
    exact ⟨e,rfl⟩
  · refine buildHashMaps_error mode collectAllRows keys ht (h.imp_right fun ho => ⟨?_,ho⟩)
    exact fun hm => h32 ⟨hm,ho.1⟩

end Dodam.Execution
