import Dodam.Execution.HashJoin.Stream

/-! # The hash-join stream and the nested-loop join

The first call reads the build side; the rest is a run of the built stream.
-/
namespace Dodam.Execution
open Foundation

/-- Two inputs whose key columns have the same types. -/
structure JoinInputs (α : Type) where
  types : List DataType
  types_ne : types ≠ []
  leftKeys : List String
  rightKeys : List String
  leftKeys_length : leftKeys.length = types.length
  rightKeys_length : rightKeys.length = types.length
  left : List (RecordBatch α)
  right : List (RecordBatch α)
  left_typed : Typed types left
  right_typed : Typed types right

/-- A join with the side it builds on; a semi join builds on the right. -/
structure HashJoinPlan where
  joinType : JoinType
  buildSide : JoinBuildSide
  semi_side : joinType = .semi → buildSide = .right

namespace JoinInputs
variable {α : Type} (inputs : JoinInputs α) (side : JoinBuildSide)

def build : List (RecordBatch α) :=
  match side with
  | .left => inputs.left
  | .right => inputs.right

def probe : List (RecordBatch α) :=
  match side with
  | .left => inputs.right
  | .right => inputs.left

def buildKeys : List String :=
  match side with
  | .left => inputs.leftKeys
  | .right => inputs.rightKeys

theorem build_typed : Typed inputs.types (inputs.build side) := by
  cases side
  · exact inputs.left_typed
  · exact inputs.right_typed

theorem probe_typed : Typed inputs.types (inputs.probe side) := by
  cases side
  · exact inputs.right_typed
  · exact inputs.left_typed

theorem buildKeys_ne : inputs.buildKeys side ≠ [] := by
  have hlen : (inputs.buildKeys side).length = inputs.types.length := by
    cases side
    · exact inputs.leftKeys_length
    · exact inputs.rightKeys_length
  intro h
  rw [h] at hlen
  exact inputs.types_ne (List.length_eq_zero_iff.mp hlen.symm)

def stream (plan : HashJoinPlan) : HashJoinStream α :=
  .start (inputs.left.map .ok) (inputs.right.map .ok) inputs.leftKeys inputs.rightKeys
    plan.buildSide plan.joinType

end JoinInputs

section Algebra
variable {α : Type} {buildSide : JoinBuildSide} {joinType : JoinType}

theorem bind_rowOutput (h : joinType ≠ .semi) (probe build : Multiset (Row α)) :
    probe.bind (rowOutput buildSide joinType build) =
      (probe.bind fun p => (matching Row.ownedKey Row.ownedKey build p).map fun b =>
          orient buildSide (some p) (some b)) + if preservesProbe joinType buildSide then
          (probe.filter (Unmatched Row.ownedKey Row.ownedKey build)).map fun p =>
            orient buildSide (some p) none else 0 := by
  have hrow : rowOutput buildSide joinType build = fun p =>
      if Unmatched Row.ownedKey Row.ownedKey build p then unmatchedOutput buildSide joinType p
      else (matching Row.ownedKey Row.ownedKey build p).map fun b =>
        orient buildSide (some p) (some b) := by
    funext p
    unfold rowOutput
    rw [if_neg h]
  rw [hrow,bind_probe]
  congr 1
  unfold unmatchedOutput
  split_ifs
  · exact Multiset.bind_singleton ..
  · exact Multiset.bind_zero _

theorem bind_rowOutput_semi (probe build : Multiset (Row α)) :
    probe.bind (rowOutput .right .semi build) = semiRows Row.ownedKey Row.ownedKey probe build :=
  bind_semi Row.ownedKey Row.ownedKey probe build

theorem nestedLoopJoin_eq_probe
    (hside : joinType = .semi → buildSide = .right) (inputs : JoinInputs α) :
    nestedLoopJoin Row.ownedKey Row.ownedKey joinType (allRows inputs.left) (allRows inputs.right) =
      (allRows (inputs.probe buildSide)).bind
          (rowOutput buildSide joinType (allRows (inputs.build buildSide))) +
        unmatchedBuild buildSide joinType (allRows (inputs.build buildSide))
          (allRows (inputs.probe buildSide)) := by
  by_cases hsemi : joinType = .semi
  · obtain rfl := hside hsemi
    subst hsemi
    rw [bind_rowOutput_semi]
    exact (add_zero _).symm
  · rw [bind_rowOutput hsemi]
    cases buildSide with
    | right =>
      change _ = innerPairs Row.ownedKey Row.ownedKey (allRows inputs.left) (allRows inputs.right) +
        (if _ then leftOnly Row.ownedKey Row.ownedKey (allRows inputs.left) (allRows inputs.right)
          else 0) + if _ then
            rightOnly Row.ownedKey Row.ownedKey (allRows inputs.left) (allRows inputs.right) else 0
      cases joinType <;> simp [nestedLoopJoin,preservesProbe,shouldEmitUnmatchedBuild] at hsemi ⊢
    | left =>
      change _ = (Multiset.bind (allRows inputs.right) fun b =>
          (matching Row.ownedKey Row.ownedKey (allRows inputs.left) b).map fun a => (some a,some b)) +
        (if _ then rightOnly Row.ownedKey Row.ownedKey (allRows inputs.left) (allRows inputs.right)
          else 0) + if _ then
            leftOnly Row.ownedKey Row.ownedKey (allRows inputs.left) (allRows inputs.right) else 0
      rw [← innerPairs_eq_bind_right]
      cases joinType <;>
        simp [nestedLoopJoin,preservesProbe,shouldEmitUnmatchedBuild,add_right_comm] at hsemi ⊢

theorem nestedLoopJoin_eq_zero_iff
    (hside : joinType = .semi → buildSide = .right) {inputs : JoinInputs α}
    (hbuild : allRows (inputs.build buildSide) = 0) :
    nestedLoopJoin Row.ownedKey Row.ownedKey joinType (allRows inputs.left) (allRows inputs.right) = 0 ↔
      (preservesProbe joinType buildSide = true → allRows (inputs.probe buildSide) = 0) := by
  have hnone : unmatchedBuild buildSide joinType (0 : Multiset (Row α))
      (allRows (inputs.probe buildSide)) = 0 := by
    unfold unmatchedBuild
    rw [Multiset.filter_zero,Multiset.map_zero,ite_self]
  rw [nestedLoopJoin_eq_probe hside,hbuild,hnone,add_zero]
  have hrow : rowOutput buildSide joinType (0 : Multiset (Row α)) = unmatchedOutput buildSide joinType := by
    funext row
    exact if_pos (unmatched_zero Row.ownedKey Row.ownedKey row)
  rw [hrow]
  unfold unmatchedOutput
  split_ifs with hp
  · simp [hp,Multiset.bind_singleton]
  · simp [hp]

end Algebra

section Stream
variable {α : Type}

namespace HashJoinPlan

def mode (plan : HashJoinPlan) : HashBuildMode :=
  if plan.joinType = .semi then .fastSemi else .fastSingleKey

def emitsUnmatchedBuild (plan : HashJoinPlan) : Bool :=
  shouldEmitUnmatchedBuild plan.joinType plan.buildSide

/-- The rows of a build side that loses none: the final pass sees them all, so there was a probe
batch to take the padding types from, and no dense array has left out the rows without a key. -/
def LosesNothing (plan : HashJoinPlan) (types : List DataType) (build probe : List (RecordBatch α)) :
    Prop :=
  plan.emitsUnmatchedBuild = true → probe ≠ [] ∧
    (DenseUniqueKeys types build → ∀ row ∈ allRows build, row.ownedKey ≠ none)

/-- The inputs on which the stream is the nested-loop join. A build side without rows ends the
stream, so nothing may be preserved on the other side; otherwise all indices must fit their
32 bits and no unmatched build row may be lost. -/
def Exact (plan : HashJoinPlan) (inputs : JoinInputs α) : Prop :=
  let build := nonEmptyBatches (inputs.build plan.buildSide)
  let probe := inputs.probe plan.buildSide
  if build = [] then preservesProbe plan.joinType plan.buildSide = true → allRows probe = 0
  else
    (Referable plan.mode inputs.types build ∧ ¬ DenseOverflow inputs.types build ∧
      ∀ batch ∈ probe, Indexable (rowOutput plan.buildSide plan.joinType (allRows build)) batch.rows) ∧
    plan.LosesNothing inputs.types build probe

end HashJoinPlan

open HashJoinStream

variable {hashRowWithSalt : RowHash} {plan : HashJoinPlan} {inputs : JoinInputs α}

theorem collectNonEmptyBatches_ok (batches : List (RecordBatch α)) :
    collectNonEmptyBatches (batches.map .ok) = .ok (nonEmptyBatches batches) := by
  unfold collectNonEmptyBatches
  have hm : (batches.map Except.ok).mapM id = (.ok batches : Result _) := by
    rw [mapM_ok_iff,List.forall₂_map_left_iff]
    exact List.forall₂_same.mpr fun _ _ => rfl
  rw [hm]
  rfl

theorem ensureBuilt_stream (hashRowWithSalt : RowHash) (plan : HashJoinPlan) (inputs : JoinInputs α) :
    ensureBuilt hashRowWithSalt (inputs.stream plan) =
      match nonEmptyBatches (inputs.build plan.buildSide) with
      | [] => ((inputs.stream plan).takeBuildInput,some none)
      | first :: rest =>
        match buildHashJoinInput hashRowWithSalt (first :: rest) (inputs.buildKeys plan.buildSide)
            plan.mode plan.emitsUnmatchedBuild with
        | .error error => ((inputs.stream plan).takeBuildInput,some (some (.error error)))
        | .ok build => ((inputs.stream plan).takeBuildInput.setBuild build,none) := by
  have hin : (inputs.stream plan).buildInput = (inputs.build plan.buildSide).map .ok := by
    unfold JoinInputs.stream start HashJoinStream.buildInput JoinInputs.build
    cases plan.buildSide <;> rfl
  have hkeys : (inputs.stream plan).takeBuildInput.buildKeys = inputs.buildKeys plan.buildSide := by
    unfold JoinInputs.stream start takeBuildInput setBuildInput HashJoinStream.buildKeys JoinInputs.buildKeys
    cases plan.buildSide <;> rfl
  have htype : (inputs.stream plan).takeBuildInput.joinType = plan.joinType := by
    unfold JoinInputs.stream start takeBuildInput setBuildInput
    cases plan.buildSide <;> rfl
  have hside : (inputs.stream plan).takeBuildInput.buildSide = plan.buildSide := by
    unfold JoinInputs.stream start takeBuildInput setBuildInput
    cases plan.buildSide <;> rfl
  have hnot : ¬ (inputs.stream plan).built = true := Bool.false_ne_true
  unfold ensureBuilt
  rw [if_neg hnot]
  dsimp only
  rw [hin,collectNonEmptyBatches_ok,hkeys,htype,hside]
  cases nonEmptyBatches (inputs.build plan.buildSide) <;> rfl

theorem running_start (plan : HashJoinPlan) (inputs : JoinInputs α) (build : HashJoinBuild α) :
    Running build plan.buildSide plan.joinType 0 (inputs.probe plan.buildSide)
        ((inputs.stream plan).takeBuildInput.setBuild build) ∧
      ((inputs.stream plan).takeBuildInput.setBuild build).pendingOutput = [] ∧
      ((inputs.stream plan).takeBuildInput.setBuild build).probeTemplate = none := by
  have hmatched : ((inputs.stream plan).takeBuildInput.setBuild build).matchedBuild =
      if plan.emitsUnmatchedBuild then some (MatchedBuildTracker.forBuild build) else none := by
    unfold JoinInputs.stream start takeBuildInput setBuildInput setBuild HashJoinPlan.emitsUnmatchedBuild
    cases plan.buildSide <;> rfl
  have htrackers : TrackersFor build.batches build.i32DenseUniqueRows plan.joinType
      plan.emitsUnmatchedBuild 0
      (if plan.emitsUnmatchedBuild then some (MatchedBuildTracker.forBuild build) else none) none := by
    refine ⟨rfl,fun hsemi => if_neg ?_,?_,fun t ht => ?_⟩
    · unfold HashJoinPlan.emitsUnmatchedBuild
      rw [hsemi]
      cases plan.buildSide <;> exact Bool.false_ne_true
    · cases plan.emitsUnmatchedBuild <;> rfl
    · split_ifs at ht
      cases ht
      exact tracks_forBuild build
  rw [← hmatched] at htrackers
  obtain ⟨joinType,buildSide,_⟩ := plan
  cases buildSide <;> exact ⟨⟨rfl,rfl,rfl,rfl,rfl,rfl,htrackers⟩,rfl,rfl⟩

theorem next_stream (hashRowWithSalt : RowHash) (plan : HashJoinPlan) (inputs : JoinInputs α) :
    next hashRowWithSalt (inputs.stream plan) =
      match nonEmptyBatches (inputs.build plan.buildSide) with
      | [] => (none,(inputs.stream plan).takeBuildInput)
      | first :: rest =>
        match buildHashJoinInput hashRowWithSalt (first :: rest) (inputs.buildKeys plan.buildSide)
            plan.mode plan.emitsUnmatchedBuild with
        | .error error => (some (.error error),(inputs.stream plan).takeBuildInput)
        | .ok build => next hashRowWithSalt ((inputs.stream plan).takeBuildInput.setBuild build) := by
  have hnext : next hashRowWithSalt (inputs.stream plan) =
      (ensureBuilt hashRowWithSalt (inputs.stream plan)).andThen fun stream =>
        (probeLoop hashRowWithSalt stream.probeInput stream).andThen emitUnmatched := rfl
  rw [hnext,ensureBuilt_stream]
  cases nonEmptyBatches (inputs.build plan.buildSide) with
  | nil => rfl
  | cons first rest =>
    dsimp only
    cases buildHashJoinInput hashRowWithSalt (first :: rest) (inputs.buildKeys plan.buildSide)
      plan.mode plan.emitsUnmatchedBuild with
    | error error => rfl
    | ok build =>
      obtain ⟨hrun,hwaiting,-⟩ := running_start plan inputs build
      exact (next_built hwaiting hrun.built).symm

theorem HashJoinPlan.mode_of_emits (h : plan.emitsUnmatchedBuild = true) :
    plan.mode = .fastSingleKey := by
  refine if_neg fun hsemi => ?_
  unfold HashJoinPlan.emitsUnmatchedBuild at h
  rw [hsemi] at h
  cases hside : plan.buildSide <;> rw [hside] at h <;> cases h

theorem lostBuild_eq_zero_iff {types : List DataType} {build probe : List (RecordBatch α)}
    {dense : Option DenseI32BuildRows} (hbuild : allRows build ≠ 0)
    (hdense : dense.isSome ↔ plan.mode = .fastSingleKey ∧ DenseUniqueKeys types build) :
    lostBuild plan.buildSide plan.joinType dense (!probe.isEmpty) (allRows build) (allRows probe) = 0 ↔
      plan.LosesNothing types build probe := by
  unfold lostBuild unmatchedBuild HashJoinPlan.LosesNothing
  by_cases hemit : plan.emitsUnmatchedBuild = true
  · have hmode := HashJoinPlan.mode_of_emits hemit
    have hyes : shouldEmitUnmatchedBuild plan.joinType plan.buildSide = true := hemit
    rw [if_pos hyes,if_pos hyes,forall_prop_of_true hemit]
    cases probe with
    | nil =>
      rw [List.isEmpty_nil,Bool.not_true,if_neg Bool.false_ne_true,Multiset.map_eq_zero]
      refine iff_of_false (fun h => hbuild ?_) (fun h => h.1 rfl)
      rw [allRows_nil] at h
      rw [← h]
      exact (Multiset.filter_eq_self.mpr fun row _ => unmatched_zero Row.ownedKey Row.ownedKey row).symm
    | cons first rest =>
      rw [List.isEmpty_cons,Bool.not_false,if_pos rfl,Multiset.map_eq_zero]
      unfold lostByDense
      split_ifs with hd
      · have hk := (hdense.mp hd).2
        rw [Multiset.filter_eq_nil]
        exact ⟨fun h => ⟨List.cons_ne_nil first rest,fun _ => h⟩,fun h => h.2 hk⟩
      · refine iff_of_true rfl ⟨List.cons_ne_nil first rest,fun hk => absurd (hdense.mpr ⟨hmode,hk⟩) hd⟩
  · have hno : ¬ shouldEmitUnmatchedBuild plan.joinType plan.buildSide = true := hemit
    rw [if_neg hno,if_neg hno,ite_self]
    exact iff_of_true rfl fun h => absurd h hemit

/-- The in-memory hash join is the nested-loop join on exactly the inputs of `Exact`. -/
theorem hashJoinStream_joins_iff (hashRowWithSalt : RowHash) (plan : HashJoinPlan)
    (inputs : JoinInputs α) :
    (∃ batches, Drains (next hashRowWithSalt) (inputs.stream plan) batches ∧
      (↑batches.flatten : Multiset (JoinedRow α)) = nestedLoopJoin Row.ownedKey Row.ownedKey
        plan.joinType (allRows inputs.left) (allRows inputs.right)) ↔ plan.Exact inputs := by
  have hnext := next_stream hashRowWithSalt plan inputs
  have hrows := allRows_nonEmptyBatches (inputs.build plan.buildSide)
  have htyped : Typed inputs.types (nonEmptyBatches (inputs.build plan.buildSide)) :=
    fun b hb => inputs.build_typed plan.buildSide b (List.mem_of_mem_filter hb)
  unfold HashJoinPlan.Exact
  by_cases hempty : nonEmptyBatches (inputs.build plan.buildSide) = []
  · -- a build side without rows ends the stream at once
    rw [hempty] at hnext hrows
    have hend : Drains (next hashRowWithSalt) (inputs.stream plan) [] := .done (by rw [hnext])
    rw [if_pos hempty,← nestedLoopJoin_eq_zero_iff plan.semi_side hrows.symm]
    refine ⟨?_,fun h => ⟨[],hend,h.symm⟩⟩
    rintro ⟨batches,hd,hsum⟩
    rw [hd.unique hend] at hsum
    exact hsum.symm
  · rw [if_neg hempty]
    have hstep : ∀ r, buildHashJoinInput hashRowWithSalt (nonEmptyBatches (inputs.build plan.buildSide))
        (inputs.buildKeys plan.buildSide) plan.mode plan.emitsUnmatchedBuild = r →
        next hashRowWithSalt (inputs.stream plan) = match r with
        | .error error => (some (.error error),(inputs.stream plan).takeBuildInput)
        | .ok build => next hashRowWithSalt
            ((inputs.stream plan).takeBuildInput.setBuild build) := by
      rintro r rfl
      rw [hnext]
      cases hb : nonEmptyBatches (inputs.build plan.buildSide) with
      | nil => exact absurd hb hempty
      | cons first rest => rfl
    by_cases hbuilds : Referable plan.mode inputs.types (nonEmptyBatches (inputs.build plan.buildSide)) ∧
        ¬ DenseOverflow inputs.types (nonEmptyBatches (inputs.build plan.buildSide))
    · obtain ⟨build,hb,hv,hdense⟩ := buildHashJoinInput_ok hashRowWithSalt plan.mode
        plan.emitsUnmatchedBuild hempty (inputs.buildKeys_ne plan.buildSide) htyped hbuilds.1 hbuilds.2
      have hcall := hstep _ hb
      obtain ⟨hrunning,hwaiting,htemplate⟩ := running_start plan inputs build
      have hbatches := hv.batches_eq
      have hcontext : RunContext hashRowWithSalt plan.mode inputs.types build plan.buildSide
          plan.joinType := by
        refine ⟨?_,?_,inputs.types_ne,fun hsemi => ?_,fun hk => ?_,plan.semi_side⟩
        · rw [hbatches]
          exact hv
        · rw [hbatches]
          exact htyped
        · unfold HashJoinPlan.mode
          rw [if_pos hsemi]
          exact HashBuildMode.noConfusion
        · by_contra hsemi
          unfold HashJoinPlan.mode at hk
          rw [if_neg hsemi] at hk
          cases hk
      obtain ⟨hok,herr⟩ := drains_running hcontext hrunning hwaiting
        (inputs.probe_typed plan.buildSide)
      rw [htemplate,Option.isSome_none,Bool.false_or,zero_add,hbatches] at hok
      rw [hbatches] at herr
      by_cases hi : ∀ batch ∈ inputs.probe plan.buildSide, Indexable (rowOutput plan.buildSide
          plan.joinType (allRows (nonEmptyBatches (inputs.build plan.buildSide)))) batch.rows
      · obtain ⟨out,hd,hsum⟩ := hok hi
        rw [hrows,← nestedLoopJoin_eq_probe plan.semi_side,← hrows] at hsum
        rw [← Drains.congr hcall] at hd
        rw [and_iff_right ⟨hbuilds.1,hbuilds.2,hi⟩,
          ← lostBuild_eq_zero_iff (allRows_nonEmptyBatches_ne hempty) hdense]
        refine ⟨?_,fun hlost => ⟨out,hd,?_⟩⟩
        · rintro ⟨batches,hbatches,hjoin⟩
          rw [hbatches.unique hd] at hjoin
          rw [← hjoin] at hsum
          exact add_eq_left.mp hsum
        · rw [← hsum,hlost,add_zero]
      · refine iff_of_false ?_ (fun h => hi h.1.2.2)
        rintro ⟨batches,hd,-⟩
        exact herr hi _ ((Drains.congr hcall).mp hd)
    · obtain ⟨e,he⟩ := buildHashJoinInput_error hashRowWithSalt plan.mode
        plan.emitsUnmatchedBuild hempty (inputs.buildKeys_ne plan.buildSide) htyped (by tauto)
      refine iff_of_false ?_ (fun h => hbuilds ⟨h.1.1,h.1.2.1⟩)
      rintro ⟨batches,hd,-⟩
      exact Drains.not_of_error (by rw [hstep _ he]) hd

def oneRowBatch (key : Option Int32) : RecordBatch Unit where
  keyTypes := [.int32]
  rows := [⟨[key.map .int32],()⟩]
  typed := by
    intro row hrow
    rw [List.mem_singleton.mp hrow]
    cases key <;> rfl

def leftRowOnly : JoinInputs Unit :=
  ⟨[.int32],by decide,["id"],["id"],rfl,rfl,[oneRowBatch (some 7)],[],
    fun _ h => by rw [List.mem_singleton.mp h]; rfl,fun _ h => absurd h List.not_mem_nil⟩

/-- A left join with an empty right side emits nothing when it builds on the right. -/
theorem leftJoin_emptyRight_loses :
    ¬ ∃ batches, Drains (next fun _ _ => 0)
      (leftRowOnly.stream ⟨.left,.right,fun h => JoinKind.noConfusion h⟩) batches ∧
      (↑batches.flatten : Multiset (JoinedRow Unit)) = nestedLoopJoin Row.ownedKey Row.ownedKey .left
        (allRows leftRowOnly.left) (allRows leftRowOnly.right) := by
  rintro ⟨batches,hd,hjoin⟩
  rw [hd.unique (.done rfl)] at hjoin
  exact absurd hjoin (by decide)

end Stream
end Dodam.Execution
