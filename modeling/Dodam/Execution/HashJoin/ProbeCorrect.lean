import Dodam.Execution.HashJoin.ProbeRun

/-! # Every probe path adds the join of its rows

For one probe row all layouts do the same: an unmatched row is padded when its
side is preserved, a matched one is emitted once for a semi join and once for
each match otherwise, and its matches are marked.
-/
namespace Dodam.Execution
open Foundation

section Output
variable {α : Type}

def rowOutput (buildSide : JoinBuildSide) (joinType : JoinType) (build : Multiset (Row α))
    (row : Row α) : Multiset (JoinedRow α) :=
  if Unmatched Row.ownedKey Row.ownedKey build row then unmatchedOutput buildSide joinType row
  else if joinType = .semi then {(some row,none)}
  else (matching Row.ownedKey Row.ownedKey build row).map fun b => orient buildSide (some row) (some b)

/-- The trackers of a probe: no probe keys are tracked, a semi join tracks nothing, and what
is tracked are the build rows matched so far. -/
structure TrackersFor (batches : List (RecordBatch α)) (dense : Option DenseI32BuildRows)
    (joinType : JoinType) (tracked : Bool) (probed : Multiset (Row α))
    (mb : Option MatchedBuildTracker) (mk : Option (Finset OwnedRow)) : Prop where
  keys_none : mk = none
  semi_none : joinType = .semi → mb = none
  isSome_eq : mb.isSome = tracked
  tracks : ∀ t, mb = some t → Tracks batches dense probed t

variable {batches : List (RecordBatch α)} {dense : Option DenseI32BuildRows} {joinType : JoinType}
variable {tracked : Bool} {probed : Multiset (Row α)} {mb : Option MatchedBuildTracker}
variable {mk : Option (Finset OwnedRow)} {row : Row α}

theorem TrackersFor.skip (h : TrackersFor batches dense joinType tracked probed mb mk)
    (hrow : foundRefs batches row = []) :
    TrackersFor batches dense joinType tracked (probed + {row}) mb mk :=
  ⟨h.keys_none,h.semi_none,h.isSome_eq,fun t ht => (h.tracks t ht).skip hrow⟩

theorem TrackersFor.mark (h : TrackersFor batches dense joinType tracked probed mb mk)
    {mark : MatchedBuildTracker → MatchedBuildTracker}
    (hmark : ∀ t, Tracks batches dense probed t → Tracks batches dense (probed + {row}) (mark t)) :
    TrackersFor batches dense joinType tracked (probed + {row}) (mb.map mark) mk := by
  refine ⟨h.keys_none,fun hs => by rw [h.semi_none hs]; rfl,?_,fun t ht => ?_⟩
  · rw [Option.isSome_map,h.isSome_eq]
  · obtain ⟨t',ht',rfl⟩ := Option.map_eq_some_iff.mp ht
    exact hmark t' (h.tracks t' ht')

variable {buildSide : JoinBuildSide}

theorem rowOutput_unmatched (h : foundRefs batches row = []) :
    rowOutput buildSide joinType (allRows batches) row = unmatchedOutput buildSide joinType row :=
  if_pos ((foundRefs_eq_nil_iff batches row).mp h)

theorem rowOutput_semi (h : foundRefs batches row ≠ []) (hs : joinType = .semi) :
    rowOutput buildSide joinType (allRows batches) row = {(some row,none)} := by
  unfold rowOutput
  rw [if_neg fun hu => h ((foundRefs_eq_nil_iff batches row).mpr hu),if_pos hs]

theorem rowOutput_matched (h : foundRefs batches row ≠ []) (hs : joinType ≠ .semi) :
    rowOutput buildSide joinType (allRows batches) row =
      ↑((matchesOf batches row).map fun p => orient buildSide (some row) (some p.2)) := by
  unfold rowOutput
  rw [if_neg fun hu => h ((foundRefs_eq_nil_iff batches row).mpr hu),if_neg hs,
    ← map_snd_matchesOf,Multiset.map_coe,List.map_map]
  rfl

theorem rowOutput_ne_zero (h : foundRefs batches row ≠ []) :
    rowOutput buildSide joinType (allRows batches) row ≠ 0 := by
  by_cases hs : joinType = .semi
  · rw [rowOutput_semi h hs]
    simp
  · rw [rowOutput_matched h hs]
    unfold foundRefs at h
    simpa using h

theorem unmatchedOutput_ne_zero (h : unmatchedOutput buildSide joinType row ≠ 0) :
    preservesProbe joinType buildSide = true := by
  by_contra hp
  rw [unmatchedOutput,if_neg hp] at h
  exact h rfl

theorem unmatchedOutput_of_preserves (h : preservesProbe joinType buildSide = true) :
    unmatchedOutput buildSide joinType row ≠ 0 := by
  rw [unmatchedOutput,if_pos h]
  simp

end Output

section Paths
variable {α : Type} {context : HashJoinMaterializeContext α} {joinType : JoinType}
variable {dense : Option DenseI32BuildRows} {tracked : Bool}

/-- A probe path on a batch: it fails when a row that adds something has an index past the
limit; otherwise it adds what its rows add, and marks their matches. -/
def ProbeSpec (context : HashJoinMaterializeContext α) (joinType : JoinType)
    (dense : Option DenseI32BuildRows) (tracked : Bool)
    (probe : ProbeState α → Result (ProbeOutput α)) : Prop :=
  ∀ mb mk probed, TrackersFor context.build.batches dense joinType tracked probed mb mk →
    (Indexable (rowOutput context.buildSide joinType (allRows context.build.batches))
        context.probe.rows →
      ∃ o, probe (ProbeState.init mb mk) = .ok o ∧
        (↑o.batches.flatten : Multiset (JoinedRow α)) = (↑context.probe.rows : Multiset (Row α)).bind
          (rowOutput context.buildSide joinType (allRows context.build.batches)) ∧
        TrackersFor context.build.batches dense joinType tracked (probed + ↑context.probe.rows)
          o.matchedBuild o.matchedProbeKeys) ∧
    (¬ Indexable (rowOutput context.buildSide joinType (allRows context.build.batches))
        context.probe.rows → ∃ e, probe (ProbeState.init mb mk) = .error e)

theorem BodySpec.probe {body : ProbeState α → Row α × ℕ → Result (ProbeState α)}
    (h : BodySpec context body (rowOutput context.buildSide joinType (allRows context.build.batches))
      (TrackersFor context.build.batches dense joinType tracked)) :
    ProbeSpec context joinType dense tracked (probeRows context body) :=
  fun _ _ _ ht => ⟨fun hi => probeRows_ok h hi ht,fun hi => probeRows_error h hi _⟩

variable {i : ℕ} {unmatched : ℕ → ProbeState α → Result (ProbeState α)} {row : Row α}
variable {out : Multiset (JoinedRow α)}

theorem u32TryFrom_ok (h : i < 2 ^ 32) (message : String) : u32TryFrom i message = .ok i :=
  if_pos h

theorem u32TryFrom_error (h : 2 ^ 32 ≤ i) (message : String) :
    u32TryFrom i message = unsupportedSql message :=
  if_neg (not_lt.mpr h)

/-- The two ways of adding an unmatched row. -/
structure UnmatchedSpec (context : HashJoinMaterializeContext α) (joinType : JoinType)
    (unmatched : ℕ → ProbeState α → Result (ProbeState α)) : Prop where
  pushes : ∀ row i, (row,i) ∈ context.probe.rows.zipIdx →
    (preservesProbe joinType context.buildSide = true → i < 2 ^ 32) →
    Pushes context (unmatched i) (unmatchedOutput context.buildSide joinType row)
  rejects : ∀ i, preservesProbe joinType context.buildSide = true → 2 ^ 32 ≤ i → ∀ state,
    ∃ e, unmatched i state = .error e

theorem unmatchedIfOuter_spec : UnmatchedSpec context joinType (pushUnmatchedProbeIfOuter context joinType) where
  pushes _ _ hrow hi := pushUnmatchedProbeIfOuter_pushes joinType hrow hi
  rejects i hp hi state := by
    unfold pushUnmatchedProbeIfOuter
    rw [hp,if_neg (by simp),u32TryFrom_error hi]
    exact ⟨_,rfl⟩

theorem unmatchedMatch_spec : UnmatchedSpec context joinType (pushUnmatchedProbeMatch context joinType) where
  pushes _ _ hrow hi := pushUnmatchedProbeMatch_pushes joinType hrow hi
  rejects i hp hi state := by
    unfold pushUnmatchedProbeMatch
    rw [hp,if_neg (by simp),u32TryFrom_error hi]
    exact ⟨_,rfl⟩

theorem UnmatchedSpec.accept (h : UnmatchedSpec context joinType unmatched)
    (hm : (row,i) ∈ context.probe.rows.zipIdx) (hf : foundRefs context.build.batches row = [])
    (hi : rowOutput context.buildSide joinType (allRows context.build.batches) row ≠ 0 → i < 2 ^ 32)
    {state : ProbeState α} {probed : Multiset (Row α)} (hs : Stands context state out)
    (ht : TrackersFor context.build.batches dense joinType tracked probed state.matchedBuild
      state.matchedProbeKeys) : ∃ state', unmatched i state = .ok state' ∧ Stands context state'
        (out + rowOutput context.buildSide joinType (allRows context.build.batches) row) ∧
      TrackersFor context.build.batches dense joinType tracked (probed + {row}) state'.matchedBuild
        state'.matchedProbeKeys := by
  rw [rowOutput_unmatched hf] at hi ⊢
  obtain ⟨state',hpush,hs',hmb,hmk⟩ :=
    h.pushes row i hm (fun hp => hi (unmatchedOutput_of_preserves hp)) state out hs
  exact ⟨state',hpush,hs',by rw [hmb,hmk]; exact ht.skip hf⟩

theorem UnmatchedSpec.reject (h : UnmatchedSpec context joinType unmatched)
    (hf : foundRefs context.build.batches row = [])
    (hne : rowOutput context.buildSide joinType (allRows context.build.batches) row ≠ 0)
    (hi : 2 ^ 32 ≤ i) (state : ProbeState α) : ∃ e, unmatched i state = .error e := by
  rw [rowOutput_unmatched hf] at hne
  exact h.rejects i (unmatchedOutput_ne_zero hne) hi state

theorem pushMatches_accept {probed : Multiset (Row α)}
    (hm : (row,i) ∈ context.probe.rows.zipIdx) (hf : foundRefs context.build.batches row ≠ [])
    (hi : rowOutput context.buildSide joinType (allRows context.build.batches) row ≠ 0 → i < 2 ^ 32)
    (hside : joinType = .semi → context.buildSide = .right)
    {state : ProbeState α} (hs : Stands context state out)
    (ht : TrackersFor context.build.batches dense joinType tracked probed state.matchedBuild
      state.matchedProbeKeys) : ∃ state', (u32TryFrom i rowsPerSideMessage >>= fun probeRow =>
        if joinType = .semi then pushSemiJoinMatch context probeRow state
        else pushHashJoinMatches context probeRow (foundRefs context.build.batches row) state) =
          .ok state' ∧ Stands context state'
        (out + rowOutput context.buildSide joinType (allRows context.build.batches) row) ∧
      TrackersFor context.build.batches dense joinType tracked probed state'.matchedBuild
        state'.matchedProbeKeys := by
  rw [u32TryFrom_ok (hi (rowOutput_ne_zero hf)),except_bind_ok]
  by_cases hsemi : joinType = .semi
  · rw [if_pos hsemi,rowOutput_semi hf hsemi]
    obtain ⟨state',hp,hs',hmb,hmk⟩ := pushSemiJoinMatch_pushes (hside hsemi) hm state out hs
    exact ⟨state',hp,hs',by rw [hmb,hmk]; exact ht⟩
  · rw [if_neg hsemi,rowOutput_matched hf hsemi]
    have hmem : ∀ p ∈ matchesOf context.build.batches row, p ∈ rowRefs context.build.batches :=
      fun p hp => List.mem_of_mem_filter hp
    obtain ⟨state',hp,hs',hmb,hmk⟩ := pushHashJoinMatches_pushes hm hmem state out hs
    exact ⟨state',hp,hs',by rw [hmb,hmk]; exact ht⟩

theorem probeMulti_spec {find : List (Option KeyValue) → Option (List BuildRowRef)}
    (hfind : ∀ row ∈ context.probe.rows,
      find row.key = nonEmpty (foundRefs context.build.batches row))
    (hside : joinType = .semi → context.buildSide = .right) :
    ProbeSpec context joinType none tracked (probeMulti context joinType find) := by
  apply BodySpec.probe
  constructor
  · intro row i hm hi state out probed hs ht
    have hrow : row ∈ context.probe.rows := List.fst_mem_of_mem_zipIdx hm
    rw [hfind row hrow]
    by_cases hf : foundRefs context.build.batches row = []
    · rw [hf]
      exact unmatchedIfOuter_spec.accept hm hf hi hs ht
    · rw [nonEmpty_eq_some.mpr ⟨rfl,hf⟩]
      have ht' := ht.mark (fun t h => Tracks.markRefs h row)
      exact pushMatches_accept hm hf hi hside (show Stands context { state with
        matchedBuild := state.matchedBuild.map fun tracker =>
          tracker.markRefs (foundRefs context.build.batches row) } out from hs) ht'
  · intro row i hm hne hi state
    have hrow : row ∈ context.probe.rows := List.fst_mem_of_mem_zipIdx hm
    rw [hfind row hrow]
    by_cases hf : foundRefs context.build.batches row = []
    · rw [hf]
      exact unmatchedIfOuter_spec.reject hf hne hi state
    · rw [nonEmpty_eq_some.mpr ⟨rfl,hf⟩]
      rw [u32TryFrom_error hi]
      exact ⟨_,rfl⟩

theorem probeUnique_spec {handlesSemi : Bool} {find : List (Option KeyValue) → Option BuildRowRef}
    {mark : MatchedBuildTracker → List (Option KeyValue) → BuildRowRef → MatchedBuildTracker}
    {unmatched : JoinType → ℕ → ProbeState α → Result (ProbeState α)}
    (hfind : ∀ row ∈ context.probe.rows, (find row.key).map (fun r => [r]) =
      nonEmpty (foundRefs context.build.batches row))
    (hmark : ∀ row ∈ context.probe.rows, ∀ r, foundRefs context.build.batches row = [r] →
      ∀ probed t, Tracks context.build.batches dense probed t →
        Tracks context.build.batches dense (probed + {row}) (mark t row.key r))
    (hun : UnmatchedSpec context joinType (unmatched joinType))
    (hhandles : joinType = .semi → handlesSemi = true)
    (hside : joinType = .semi → context.buildSide = .right) :
    ProbeSpec context joinType dense tracked
      (probeUnique context joinType handlesSemi find mark unmatched) := by
  apply BodySpec.probe
  constructor
  · intro row i hm hi state out probed hs ht
    have hrow : row ∈ context.probe.rows := List.fst_mem_of_mem_zipIdx hm
    have hf := hfind row hrow
    cases hr : find row.key with
    | none =>
      rw [hr,Option.map_none,eq_comm,nonEmpty_eq_none] at hf
      exact hun.accept hm hf hi hs ht
    | some r =>
      rw [hr,Option.map_some,eq_comm,nonEmpty_eq_some] at hf
      have hne : foundRefs context.build.batches row ≠ [] := hf.2
      have ht' : TrackersFor context.build.batches dense joinType tracked (probed + {row})
          (state.matchedBuild.map fun t => mark t row.key r) state.matchedProbeKeys :=
        ht.mark (hmark row hrow r hf.1 probed)
      dsimp only
      rw [u32TryFrom_ok (hi (rowOutput_ne_zero hne)),except_bind_ok]
      by_cases hsemi : joinType = .semi
      · rw [if_pos ⟨hhandles hsemi,hsemi⟩,rowOutput_semi hne hsemi]
        obtain ⟨state',hp,hs',hmb,hmk⟩ := pushSemiJoinMatch_pushes (hside hsemi) hm
          { state with
            matchedBuild := state.matchedBuild.map fun tracker => mark tracker row.key r } out hs
        exact ⟨state',hp,hs',by rw [hmb,hmk]; exact ht'⟩
      · rw [if_neg fun h => hsemi h.2,rowOutput_matched hne hsemi]
        obtain ⟨p,hmatch,hpr⟩ : ∃ p, matchesOf context.build.batches row = [p] ∧ p.1 = r := by
          have hmap : (matchesOf context.build.batches row).map Prod.fst = [r] := hf.1
          exact List.map_eq_singleton_iff.mp hmap
        have hmem : p ∈ rowRefs context.build.batches := by
          refine List.mem_of_mem_filter (p := fun p => decide (Joins row.ownedKey p.2.ownedKey)) ?_
          change p ∈ matchesOf context.build.batches row
          rw [hmatch]
          exact List.mem_singleton_self p
        obtain ⟨state',hp,hs',hmb,hmk⟩ := pushHashJoinMatch_pushes hm hmem
          { state with
            matchedBuild := state.matchedBuild.map fun tracker => mark tracker row.key r } out hs
        rw [hmatch]
        exact ⟨state',hpr ▸ hp,hs',by rw [hmb,hmk]; exact ht'⟩
  · intro row i hm hne hi state
    have hrow : row ∈ context.probe.rows := List.fst_mem_of_mem_zipIdx hm
    have hf := hfind row hrow
    cases hr : find row.key with
    | none =>
      rw [hr,Option.map_none,eq_comm,nonEmpty_eq_none] at hf
      exact hun.reject hf hne hi state
    | some r =>
      rw [u32TryFrom_error hi]
      exact ⟨_,rfl⟩

/-- The membership loop. A semi join preserves no side. -/
theorem probeKeySet_spec {contains : Int32 → Bool}
    (hcontains : ∀ row ∈ context.probe.rows, (int32Layout.read row.key).any contains = true ↔
      foundRefs context.build.batches row ≠ []) :
    ProbeSpec context .semi dense tracked (probeKeySet context contains) := by
  have hnone : ∀ row : Row α, foundRefs context.build.batches row = [] →
      rowOutput context.buildSide .semi (allRows context.build.batches) row = 0 := by
    intro row hf
    rw [rowOutput_unmatched hf]
    rfl
  apply BodySpec.probe
  constructor
  · intro row i hm hi state out probed hs ht
    have hrow : row ∈ context.probe.rows := List.fst_mem_of_mem_zipIdx hm
    have hc := hcontains row hrow
    have ht' : TrackersFor context.build.batches dense .semi tracked (probed + {row}) state.matchedBuild
        state.matchedProbeKeys := by
      refine ⟨ht.keys_none,ht.semi_none,ht.isSome_eq,fun t hmb => ?_⟩
      rw [ht.semi_none rfl] at hmb
      cases hmb
    by_cases hf : foundRefs context.build.batches row = []
    · rw [hnone row hf,add_zero]
      refine ⟨state,?_,hs,ht'⟩
      cases hr : int32Layout.read row.key with
      | none => rfl
      | some k =>
        have hk : ¬ contains k = true := fun hk => hc.mp (by rw [hr]; exact hk) hf
        dsimp only
        rw [if_neg hk]
    · have hk := hc.mpr hf
      obtain ⟨k,hr,hk⟩ := (Option.any_eq_true _ _).mp hk
      rw [hr]
      dsimp only
      rw [if_pos hk,u32TryFrom_ok (hi (rowOutput_ne_zero hf)),except_bind_ok,rowOutput_semi hf rfl]
      obtain ⟨state',hp,hs',hmb,hmk⟩ := pushSemiIndex_pushes hm state out hs
      exact ⟨state',hp,hs',by rw [hmb,hmk]; exact ht'⟩
  · intro row i hm hne hi state
    have hrow : row ∈ context.probe.rows := List.fst_mem_of_mem_zipIdx hm
    have hf : foundRefs context.build.batches row ≠ [] := fun hf => hne (hnone row hf)
    obtain ⟨k,hr,hk⟩ := (Option.any_eq_true _ _).mp ((hcontains row hrow).mpr hf)
    rw [hr]
    dsimp only
    rw [if_pos hk,u32TryFrom_error hi]
    exact ⟨_,rfl⟩

/-- The general path, when no probe key is excluded. -/
theorem probeRowFormat_spec (hashRowWithSalt : RowHash)
    (hfind : ∀ row ∈ context.probe.rows, row.ownedKey.bind (context.build.findRow hashRowWithSalt) =
      nonEmpty (foundRefs context.build.batches row))
    (hside : joinType = .semi → context.buildSide = .right) :
    ProbeSpec context joinType none tracked (probeRowFormat context joinType hashRowWithSalt none) := by
  apply BodySpec.probe
  constructor
  · intro row i hm hi state out probed hs ht
    have hrow : row ∈ context.probe.rows := List.fst_mem_of_mem_zipIdx hm
    have hf := hfind row hrow
    have hun := fun hf => unmatchedIfOuter_spec.accept hm hf hi hs ht
    cases hk : row.ownedKey with
    | none =>
      rw [hk,Option.bind_none,eq_comm,nonEmpty_eq_none] at hf
      exact hun hf
    | some key =>
      rw [hk,Option.bind_some] at hf
      unfold HashJoinBuild.findRow at hf
      dsimp only
      rw [Option.any_none,if_neg (by simp)]
      split at hf
      · next hbloom =>
        rw [if_pos hbloom]
        exact hun (nonEmpty_eq_none.mp hf.symm)
      · next hbloom =>
        rw [if_neg hbloom,hf]
        by_cases hnil : foundRefs context.build.batches row = []
        · rw [hnil]
          exact hun hnil
        · rw [nonEmpty_eq_some.mpr ⟨rfl,hnil⟩]
          have ht' := ht.mark (fun t h => Tracks.markRefs h row)
          refine pushMatches_accept hm hnil hi hside (show Stands context { state with
            matchedBuild := state.matchedBuild.map fun tracker =>
              tracker.markRefs (foundRefs context.build.batches row)
            matchedProbeKeys := state.matchedProbeKeys.map fun keys => insert key keys } out from hs) ?_
          rw [ht.keys_none] at ht' ⊢
          exact ht'
  · intro row i hm hne hi state
    have hrow : row ∈ context.probe.rows := List.fst_mem_of_mem_zipIdx hm
    have hf := hfind row hrow
    have hspec : UnmatchedSpec context joinType (pushUnmatchedProbeIfOuter context joinType) :=
      unmatchedIfOuter_spec
    have hun := fun hf => hspec.reject hf hne hi state
    cases hk : row.ownedKey with
    | none =>
      rw [hk,Option.bind_none,eq_comm,nonEmpty_eq_none] at hf
      exact hun hf
    | some key =>
      rw [hk,Option.bind_some] at hf
      unfold HashJoinBuild.findRow at hf
      dsimp only
      rw [Option.any_none,if_neg (by simp)]
      split at hf
      · next hbloom =>
        rw [if_pos hbloom]
        exact hun (nonEmpty_eq_none.mp hf.symm)
      · next hbloom =>
        rw [if_neg hbloom,hf]
        by_cases hnil : foundRefs context.build.batches row = []
        · rw [hnil]
          exact hun hnil
        · rw [nonEmpty_eq_some.mpr ⟨rfl,hnil⟩]
          dsimp only
          rw [u32TryFrom_error hi]
          exact ⟨_,rfl⟩

theorem ProbeSpec.withTypes {probe : ProbeState α → Result (ProbeOutput α)}
    (h : ProbeSpec context joinType dense tracked probe) (path : String) {types : List DataType}
    (ht : context.probe.keyTypes = types) :
    ProbeSpec context joinType dense tracked fun state => withProbeKeyTypes path types context (probe state) := by
  have he : (fun state => withProbeKeyTypes path types context (probe state)) = probe := by
    funext state
    unfold withProbeKeyTypes
    rw [if_neg (by simp [ht]),if_neg (by simp [ht])]
  rw [he]
  exact h

section Layouts
variable {κ : Type} [DecidableEq κ] {layout : KeyLayout κ} {types : List DataType}

theorem Serves.multi_spec {find : κ → Option (List BuildRowRef)}
    (h : Serves layout types (rowRefs context.build.batches) find)
    (ht : Typed types context.build.batches) (hprobe : context.probe.keyTypes = types)
    (hside : joinType = .semi → context.buildSide = .right) (path : String) :
    ProbeSpec context joinType none tracked fun state => withProbeKeyTypes path layout.types context
      (probeMulti context joinType (fun key => (layout.read key).bind find) state) := by
  refine ProbeSpec.withTypes ?_ path (hprobe.trans h.types_eq)
  refine probeMulti_spec (fun row hrow => ?_) hside
  exact h.find_eq ht (hprobe ▸ context.probe.typed row hrow)

theorem Serves.unique_spec {find : κ → Option BuildRowRef}
    (h : Serves layout types (rowRefs context.build.batches) fun k => (find k).map fun r => [r])
    (ht : Typed types context.build.batches) (hprobe : context.probe.keyTypes = types)
    {handlesSemi : Bool} (hhandles : joinType = .semi → handlesSemi = true)
    (hside : joinType = .semi → context.buildSide = .right) (path : String) :
    ProbeSpec context joinType none tracked fun state => withProbeKeyTypes path layout.types context
      (probeUnique context joinType handlesSemi (fun key => (layout.read key).bind find)
        (fun tracker _ => tracker.markRef) (pushUnmatchedProbeIfOuter context) state) := by
  refine ProbeSpec.withTypes ?_ path (hprobe.trans h.types_eq)
  refine probeUnique_spec (fun row hrow => ?_) (fun row _ r hr probed t hT => hT.markRef hr)
    unmatchedIfOuter_spec hhandles hside
  rw [Option.map_bind]
  exact h.find_eq ht (hprobe ▸ context.probe.typed row hrow)

end Layouts

theorem DenseUnique.spec {types : List DataType} {rows : DenseI32BuildRows}
    (h : DenseUnique types (rowRefs context.build.batches) rows)
    (ht : Typed types context.build.batches) (hprobe : context.probe.keyTypes = types)
    (hsemi : joinType ≠ .semi) :
    ProbeSpec context joinType (some rows) tracked
      (probeI32DenseUniqueHashJoinBatches context joinType rows) := by
  have hrow : ∀ row ∈ context.probe.rows, cellsMatch row.key types = true := fun row hrow =>
    hprobe ▸ context.probe.typed row hrow
  have hfind : ∀ row ∈ context.probe.rows,
      ((int32Layout.read row.key).bind rows.get).map (fun r => [r]) =
        nonEmpty (foundRefs context.build.batches row) := by
    intro row hm
    rw [Option.map_bind]
    exact h.serves.find_eq ht (hrow row hm)
  refine ProbeSpec.withTypes ?_ _ (hprobe.trans h.serves.types_eq)
  refine probeUnique_spec hfind ?_ unmatchedMatch_spec (fun hs => absurd hs hsemi)
    (fun hs => absurd hs hsemi)
  intro row hm r hr probed t hT
  have hf := hfind row hm
  cases hread : int32Layout.read row.key with
  | none =>
    rw [hread,hr] at hf
    cases hf
  | some k => exact hT.markI32Key h ht (hrow row hm) hread (by rw [hr]; simp)

theorem ServesSet.spec {types : List DataType} {contains : Int32 → Bool}
    (h : ServesSet types (rowRefs context.build.batches) contains)
    (ht : Typed types context.build.batches) (hprobe : context.probe.keyTypes = types)
    (hside : context.buildSide = .right) (path : String) :
    ProbeSpec context .semi dense tracked fun state =>
      if context.buildSide ≠ .right then unsupportedSql semiSideMessage
      else withProbeKeyTypes path [.int32] context (probeKeySet context contains state) := by
  have he : ∀ probe : ProbeState α → Result (ProbeOutput α),
      (fun state => if context.buildSide ≠ .right then unsupportedSql semiSideMessage
        else probe state) = probe := by
    intro probe
    funext state
    rw [if_neg (not_not.mpr hside)]
  rw [he]
  refine ProbeSpec.withTypes ?_ path (hprobe.trans h.types_eq)
  exact probeKeySet_spec fun row hrow => h.contains_eq ht (hprobe ▸ context.probe.typed row hrow)

end Paths

section Dispatch
variable {α : Type} {hashRowWithSalt : RowHash} {mode : HashBuildMode} {collectAllRows : Bool}
variable {types : List DataType} {context : HashJoinMaterializeContext α} {joinType : JoinType}
variable {tracked : Bool}

theorem probeGeneral_spec
    (hanswers : Answers ownedKey (rowRefs context.build.batches)
      (context.build.findRow hashRowWithSalt))
    (ht : Typed types context.build.batches) (hkeys : context.build.keyDataTypes = types)
    (hprobe : context.probe.keyTypes = types) (htypes : types ≠ [])
    (hside : joinType = .semi → context.buildSide = .right) :
    ProbeSpec context joinType none tracked (probeGeneral context joinType hashRowWithSalt none) := by
  have he : probeGeneral context joinType hashRowWithSalt none =
      probeRowFormat context joinType hashRowWithSalt none := by
    funext state
    unfold probeGeneral
    rw [if_neg (by rw [hprobe]; exact htypes),if_neg (by rw [hprobe,hkeys]; simp)]
  rw [he]
  refine probeRowFormat_spec hashRowWithSalt (fun row hrow => ?_) hside
  have hserves : Serves (rowLayout types) types (rowRefs context.build.batches)
      (context.build.findRow hashRowWithSalt) := ⟨rfl,hanswers⟩
  exact hserves.find_eq ht (hprobe ▸ context.probe.typed row hrow)

/-- Whichever layout a valid build has, the path it selects adds the join of the probe rows. -/
theorem probeLayouts_spec
    (hv : context.build.Valid hashRowWithSalt mode collectAllRows context.build.batches types)
    (ht : Typed types context.build.batches) (hprobe : context.probe.keyTypes = types)
    (htypes : types ≠ []) (hmode : joinType = .semi → mode ≠ .fastSingleKey)
    (hkeySet : buildsKeySet mode types = false)
    (hside : joinType = .semi → context.buildSide = .right) :
    ProbeSpec context joinType context.build.i32DenseUniqueRows tracked
      (probeLayouts context joinType (probeGeneral context joinType hashRowWithSalt none)) := by
  have hsemi : ∀ {β : Type} {o : Option β} {b : β}, (mode ≠ .fastSingleKey → o = none) → o = some b →
      joinType ≠ .semi := by
    intro β o b hn hb hs
    rw [hn (hmode hs)] at hb
    cases hb
  unfold probeLayouts
  dsimp only
  cases h1 : context.build.i32DenseUniqueRows with
  | some rows =>
    exact (hv.i32DenseUnique rows h1).spec ht hprobe (hsemi (fun hm => (hv.unique_none hm).1) h1)
  | none =>
  cases h2 : context.build.i32UniqueRows with
  | some rows =>
    have hs := hsemi (fun hm => (hv.unique_none hm).2.1) h2
    exact (hv.i32Unique rows h2).unique_spec ht hprobe (fun h => absurd h hs) hside _
  | none =>
  cases h3 : context.build.i32DenseRows with
  | some rows => exact (hv.i32Dense rows h3).multi_spec ht hprobe hside _
  | none =>
  cases h4 : context.build.i32Rows with
  | some rows => exact (hv.i32 rows h4).multi_spec ht hprobe hside _
  | none =>
  cases h5 : context.build.i64DenseUniqueRows with
  | some rows =>
    have hs := hsemi (fun hm => (hv.unique_none hm).2.2.1) h5
    exact (hv.i64DenseUnique rows h5).unique_spec ht hprobe (fun h => absurd h hs) hside _
  | none =>
  cases h6 : context.build.i64UniqueRows with
  | some rows =>
    have hs := hsemi (fun hm => (hv.unique_none hm).2.2.2) h6
    exact (hv.i64Unique rows h6).unique_spec ht hprobe (fun h => absurd h hs) hside _
  | none =>
  cases h7 : context.build.i64Rows with
  | some rows => exact (hv.i64 rows h7).multi_spec ht hprobe hside _
  | none =>
  cases h8 : context.build.i32PairDenseUniqueRows with
  | some rows => exact (hv.pairDenseUnique rows h8).unique_spec ht hprobe (fun _ => rfl) hside _
  | none =>
  cases h9 : context.build.i32PairUniqueRows with
  | some rows => exact (hv.pairUnique rows h9).unique_spec ht hprobe (fun _ => rfl) hside _
  | none =>
  cases h10 : context.build.i32PairRows with
  | some rows => exact (hv.pair rows h10).multi_spec ht hprobe hside _
  | none =>
  cases h11 : context.build.stringUniqueRows with
  | some rows => exact (hv.stringUnique rows h11).unique_spec ht hprobe (fun _ => rfl) hside _
  | none =>
  cases h12 : context.build.stringRows with
  | some rows => exact (hv.string rows h12).multi_spec ht hprobe hside _
  | none =>
    have huntyped : ¬ context.build.Typed := by
      unfold HashJoinBuild.Typed
      simp [h1,h2,h3,h4,h5,h6,h7,h8,h9,h10,h11,h12]
    have hgeneral := hv.general hkeySet (by
      by_contra hty
      exact huntyped (hv.typed (by simpa using hty)))
    exact probeGeneral_spec hgeneral ht hv.keyDataTypes_eq hprobe htypes hside

/-- Whatever layout a valid build has, a probe adds the join of its rows. -/
theorem probeHashJoinBatches_spec {build : HashJoinBuild α} {probe : RecordBatch α}
    {buildSide : JoinBuildSide}
    (hv : build.Valid hashRowWithSalt mode collectAllRows build.batches types)
    (ht : Typed types build.batches) (hprobe : probe.keyTypes = types) (htypes : types ≠ [])
    (hmode : joinType = .semi → mode ≠ .fastSingleKey)
    (hkeySet : buildsKeySet mode types = true → joinType = .semi)
    (hside : joinType = .semi → buildSide = .right) {mb : Option MatchedBuildTracker}
    {probed : Multiset (Row α)}
    (htr : TrackersFor build.batches build.i32DenseUniqueRows joinType tracked probed mb none) :
    (Indexable (rowOutput buildSide joinType (allRows build.batches)) probe.rows →
      ∃ o, probeHashJoinBatches hashRowWithSalt probe build buildSide joinType mb none none = .ok o ∧
        (↑o.batches.flatten : Multiset (JoinedRow α)) = (↑probe.rows : Multiset (Row α)).bind
          (rowOutput buildSide joinType (allRows build.batches)) ∧
        TrackersFor build.batches build.i32DenseUniqueRows joinType tracked (probed + ↑probe.rows)
          o.matchedBuild o.matchedProbeKeys) ∧
    (¬ Indexable (rowOutput buildSide joinType (allRows build.batches)) probe.rows →
      ∃ e, probeHashJoinBatches hashRowWithSalt probe build buildSide joinType mb none none =
        .error e) := by
  have hlayouts : buildsKeySet mode types = false →
      ProbeSpec ⟨probe,build,buildSide⟩ joinType build.i32DenseUniqueRows tracked
        (probeLayouts ⟨probe,build,buildSide⟩ joinType
          (probeGeneral ⟨probe,build,buildSide⟩ joinType hashRowWithSalt none)) :=
    fun hk => probeLayouts_spec hv ht hprobe htypes hmode hk hside
  unfold probeHashJoinBatches
  rw [if_neg (by simp)]
  by_cases hs : joinType = .semi
  · subst hs
    rw [if_pos rfl,if_pos rfl]
    cases hd : build.i32DenseKeySet with
    | some keys =>
      have hspec : ProbeSpec ⟨probe,build,buildSide⟩ .semi build.i32DenseUniqueRows tracked
          (probeI32DenseSemiJoinBatches ⟨probe,build,buildSide⟩ keys) :=
        (hv.denseKeySet keys hd).spec ht hprobe (hside rfl) _
      exact hspec mb none probed htr
    | none =>
      cases hk : build.i32KeySet with
      | some keys =>
        have hspec : ProbeSpec ⟨probe,build,buildSide⟩ .semi build.i32DenseUniqueRows tracked
            (probeI32SemiJoinBatches ⟨probe,build,buildSide⟩ keys) :=
          (hv.keySet keys hk).spec ht hprobe (hside rfl) _
        exact hspec mb none probed htr
      | none =>
        have hkeys := hv.keySet_isSome
        rw [hk] at hkeys
        exact hlayouts hkeys.symm mb none probed htr
  · rw [if_neg hs,if_neg hs]
    have hkeys : buildsKeySet mode types = false := by
      by_contra hk
      exact hs (hkeySet (by simpa using hk))
    exact hlayouts hkeys mb none probed htr

end Dispatch
end Dodam.Execution
