import Dodam.Execution.HashJoin.BuildCorrect
import Dodam.Execution.HashJoin.Emission
import Dodam.Foundation.Stream

/-! # The hash-join stream

`HashJoinStream::next`: the build side is read whole at the first call, then the probe side
batch by batch, and after it the unmatched build rows when their side is preserved.
-/
namespace Dodam.Execution
open Foundation

structure HashJoinStream (α : Type) where
  left : List (Result (RecordBatch α))
  right : List (Result (RecordBatch α))
  leftKeys : List String
  rightKeys : List String
  build : Option (HashJoinBuild α)
  buildSide : JoinBuildSide
  joinType : JoinType
  pendingOutput : List (OutputBatch α)
  built : Bool
  matchedBuild : Option MatchedBuildTracker
  emittedUnmatchedBuild : Bool
  probeTemplate : Option (RecordBatch α)

namespace HashJoinStream
variable {α : Type}

def start (left right : List (Result (RecordBatch α))) (leftKeys rightKeys : List String)
    (buildSide : JoinBuildSide) (joinType : JoinType) : HashJoinStream α :=
  ⟨left,right,leftKeys,rightKeys,none,buildSide,joinType,[],false,none,false,none⟩

def buildInput (stream : HashJoinStream α) : List (Result (RecordBatch α)) :=
  match stream.buildSide with
  | .left => stream.left
  | .right => stream.right

def buildKeys (stream : HashJoinStream α) : List String :=
  match stream.buildSide with
  | .left => stream.leftKeys
  | .right => stream.rightKeys

def probeInput (stream : HashJoinStream α) : List (Result (RecordBatch α)) :=
  match stream.buildSide with
  | .left => stream.right
  | .right => stream.left

def setBuildInput (stream : HashJoinStream α) (input : List (Result (RecordBatch α))) :
    HashJoinStream α :=
  match stream.buildSide with
  | .left => { stream with left := input }
  | .right => { stream with right := input }

def setProbeInput (stream : HashJoinStream α) (input : List (Result (RecordBatch α))) :
    HashJoinStream α :=
  match stream.buildSide with
  | .left => { stream with right := input }
  | .right => { stream with left := input }

def setMatchedBuild (stream : HashJoinStream α) (matchedBuild : Option MatchedBuildTracker) :
    HashJoinStream α :=
  { stream with matchedBuild := matchedBuild }

def setPendingOutput (stream : HashJoinStream α) (pendingOutput : List (OutputBatch α)) :
    HashJoinStream α :=
  { stream with pendingOutput := pendingOutput }

def setEmittedUnmatchedBuild (stream : HashJoinStream α) (emitted : Bool) : HashJoinStream α :=
  { stream with emittedUnmatchedBuild := emitted }

/-- What a part of `next` comes to: it returns from the call, or the call goes on. -/
abbrev Flow (α : Type) := HashJoinStream α × Option (Option (Result (OutputBatch α)))

def takeBuildInput (stream : HashJoinStream α) : HashJoinStream α :=
  { stream with built := true }.setBuildInput []

def setBuild (stream : HashJoinStream α) (build : HashJoinBuild α) : HashJoinStream α :=
  { stream with
    build := some build
    matchedBuild := if shouldTrackMatchedBuild stream.joinType stream.buildSide then
      some (MatchedBuildTracker.forBuild build) else none }

def Flow.andThen (flow : Flow α)
    (rest : HashJoinStream α → Option (Result (OutputBatch α)) × HashJoinStream α) :
    Option (Result (OutputBatch α)) × HashJoinStream α :=
  match flow with
  | (stream,some returned) => (returned,stream)
  | (stream,none) => rest stream

/-- The build, at the first call. An input without rows ends the stream. -/
def ensureBuilt (hashRowWithSalt : RowHash) (stream : HashJoinStream α) : Flow α :=
  if stream.built then (stream,none)
  else
    let input := stream.buildInput
    let stream := stream.takeBuildInput
    match collectNonEmptyBatches input with
    | .error error => (stream,some (some (.error error)))
    | .ok [] => (stream,some none)
    | .ok (first :: rest) =>
      let mode := if stream.joinType = .semi then HashBuildMode.fastSemi else .fastSingleKey
      match buildHashJoinInput hashRowWithSalt (first :: rest) stream.buildKeys mode
          (shouldEmitUnmatchedBuild stream.joinType stream.buildSide) with
      | .error error => (stream,some (some (.error error)))
      | .ok build => (stream.setBuild build,none)

/-- The state once a probe batch has been read. The first one gives the types of padded columns. -/
def readProbe (stream : HashJoinStream α) (probe : RecordBatch α)
    (rest : List (Result (RecordBatch α))) : HashJoinStream α :=
  { stream with probeTemplate := stream.probeTemplate.or (some probe) }.setProbeInput rest

def probeLoop (hashRowWithSalt : RowHash) :
    List (Result (RecordBatch α)) → HashJoinStream α → Flow α
  | [],stream => (stream.setProbeInput [],none)
  | .error error :: rest,stream => (stream.setProbeInput rest,some (some (.error error)))
  | .ok probe :: rest,stream =>
    let stream := stream.readProbe probe rest
    if probe.numRows = 0 then probeLoop hashRowWithSalt rest stream
    else
      match stream.build with
      | none => (stream,some none)
      | some build =>
        match probeHashJoinBatches hashRowWithSalt probe build stream.buildSide stream.joinType
            stream.matchedBuild none none with
        | .error error => (stream,some (some (.error error)))
        | .ok output =>
          let stream := stream.setMatchedBuild output.matchedBuild
          match output.batches with
          | [] => probeLoop hashRowWithSalt rest stream
          | first :: others =>
            (stream.setPendingOutput (stream.pendingOutput ++ others),some (some (.ok first)))

/-- The unmatched build rows, after the probe side has ended. -/
def emitUnmatched (stream : HashJoinStream α) :
    Option (Result (OutputBatch α)) × HashJoinStream α :=
  match stream.build with
  | none => (none,stream)
  | some build =>
    match emitUnmatchedBuildIfNeeded build stream.matchedBuild stream.buildSide stream.joinType
        stream.probeTemplate stream.emittedUnmatchedBuild with
    | .error error => (some (.error error),stream.setEmittedUnmatchedBuild true)
    | .ok ([],emitted) => (none,stream.setEmittedUnmatchedBuild emitted)
    | .ok (first :: others,emitted) => (some (.ok first),(stream.setEmittedUnmatchedBuild
        emitted).setPendingOutput (stream.pendingOutput ++ others))

/-- `HashJoinStream::next`. -/
def next (hashRowWithSalt : RowHash) (stream : HashJoinStream α) :
    Option (Result (OutputBatch α)) × HashJoinStream α :=
  match stream.pendingOutput with
  | batch :: rest => (some (.ok batch),stream.setPendingOutput rest)
  | [] => (ensureBuilt hashRowWithSalt stream).andThen fun stream =>
    (probeLoop hashRowWithSalt stream.probeInput stream).andThen emitUnmatched

end HashJoinStream
end Dodam.Execution

/-! ## Runs of a built hash-join stream

Once the build side is read, a stream yields what its probe rows add and then the
unmatched build rows. The run is by induction on the probe batches left: a batch
without output is passed over inside one call, and the others of a batch wait.
-/
namespace Dodam.Execution
open Foundation

namespace HashJoinStream
variable {α : Type}

section Fields
variable (stream : HashJoinStream α) (input : List (Result (RecordBatch α)))

@[simp] theorem probeInput_setProbeInput : (stream.setProbeInput input).probeInput = input := by
  unfold setProbeInput probeInput
  cases h : stream.buildSide <;> rfl
@[simp] theorem build_setProbeInput : (stream.setProbeInput input).build = stream.build := by
  unfold setProbeInput
  cases stream.buildSide <;> rfl
@[simp] theorem buildSide_setProbeInput : (stream.setProbeInput input).buildSide = stream.buildSide := by
  unfold setProbeInput
  cases h : stream.buildSide <;> rfl
@[simp] theorem joinType_setProbeInput : (stream.setProbeInput input).joinType = stream.joinType := by
  unfold setProbeInput
  cases stream.buildSide <;> rfl
@[simp] theorem pendingOutput_setProbeInput :
    (stream.setProbeInput input).pendingOutput = stream.pendingOutput := by
  unfold setProbeInput
  cases stream.buildSide <;> rfl
@[simp] theorem built_setProbeInput : (stream.setProbeInput input).built = stream.built := by
  unfold setProbeInput
  cases stream.buildSide <;> rfl
@[simp] theorem matchedBuild_setProbeInput :
    (stream.setProbeInput input).matchedBuild = stream.matchedBuild := by
  unfold setProbeInput
  cases stream.buildSide <;> rfl
@[simp] theorem emittedUnmatchedBuild_setProbeInput :
    (stream.setProbeInput input).emittedUnmatchedBuild = stream.emittedUnmatchedBuild := by
  unfold setProbeInput
  cases stream.buildSide <;> rfl
@[simp] theorem probeTemplate_setProbeInput :
    (stream.setProbeInput input).probeTemplate = stream.probeTemplate := by
  unfold setProbeInput
  cases stream.buildSide <;> rfl

variable (probe : RecordBatch α)

@[simp] theorem probeInput_readProbe : (stream.readProbe probe input).probeInput = input :=
  probeInput_setProbeInput ..
@[simp] theorem build_readProbe : (stream.readProbe probe input).build = stream.build :=
  build_setProbeInput ..
@[simp] theorem buildSide_readProbe : (stream.readProbe probe input).buildSide = stream.buildSide :=
  buildSide_setProbeInput ..
@[simp] theorem joinType_readProbe : (stream.readProbe probe input).joinType = stream.joinType :=
  joinType_setProbeInput ..
@[simp] theorem pendingOutput_readProbe :
    (stream.readProbe probe input).pendingOutput = stream.pendingOutput :=
  pendingOutput_setProbeInput ..
@[simp] theorem built_readProbe : (stream.readProbe probe input).built = stream.built :=
  built_setProbeInput ..
@[simp] theorem matchedBuild_readProbe :
    (stream.readProbe probe input).matchedBuild = stream.matchedBuild :=
  matchedBuild_setProbeInput ..
@[simp] theorem emittedUnmatchedBuild_readProbe :
    (stream.readProbe probe input).emittedUnmatchedBuild = stream.emittedUnmatchedBuild :=
  emittedUnmatchedBuild_setProbeInput ..
@[simp] theorem probeTemplate_readProbe :
    (stream.readProbe probe input).probeTemplate = stream.probeTemplate.or (some probe) :=
  probeTemplate_setProbeInput ..

end Fields

variable {hashRowWithSalt : RowHash}

theorem setPendingOutput_nil {stream : HashJoinStream α} (h : stream.pendingOutput = []) :
    stream.setPendingOutput [] = stream := by
  rw [← h]
  rfl

theorem next_pending (stream : HashJoinStream α) (batch : OutputBatch α)
    (rest : List (OutputBatch α)) :
    next hashRowWithSalt (stream.setPendingOutput (batch :: rest)) =
      (some (.ok batch),stream.setPendingOutput rest) := rfl

theorem next_built {stream : HashJoinStream α} (hp : stream.pendingOutput = [])
    (hb : stream.built = true) :
    next hashRowWithSalt stream =
      (probeLoop hashRowWithSalt stream.probeInput stream).andThen emitUnmatched := by
  have hbuilt : ensureBuilt hashRowWithSalt stream = (stream,none) := if_pos hb
  unfold next
  rw [hp]
  rw [hbuilt]
  rfl

theorem emitUnmatched_eq {stream : HashJoinStream α} {build : HashJoinBuild α} {emitted : Bool}
    {bs : List (OutputBatch α)} (hb : stream.build = some build)
    (he : emitUnmatchedBuildIfNeeded build stream.matchedBuild stream.buildSide stream.joinType
      stream.probeTemplate stream.emittedUnmatchedBuild = .ok (bs,emitted)) :
    stream.emitUnmatched =
      match bs with
      | [] => (none,stream.setEmittedUnmatchedBuild emitted)
      | first :: others => (some (.ok first),(stream.setEmittedUnmatchedBuild
          emitted).setPendingOutput (stream.pendingOutput ++ others)) := by
  unfold emitUnmatched
  simp only [hb,he]
  cases bs <;> rfl

end HashJoinStream

section Run
variable {α : Type} {hashRowWithSalt : RowHash} {mode : HashBuildMode} {types : List DataType}
variable {build : HashJoinBuild α} {buildSide : JoinBuildSide} {joinType : JoinType}

/-- A stream that has read its build side, and `probed` and no more of its probe side. -/
structure Running (build : HashJoinBuild α) (buildSide : JoinBuildSide) (joinType : JoinType)
    (probed : Multiset (Row α)) (rest : List (RecordBatch α)) (stream : HashJoinStream α) : Prop where
  built : stream.built = true
  build_eq : stream.build = some build
  buildSide_eq : stream.buildSide = buildSide
  joinType_eq : stream.joinType = joinType
  probeInput_eq : stream.probeInput = rest.map .ok
  emitted : stream.emittedUnmatchedBuild = false
  trackers : TrackersFor build.batches build.i32DenseUniqueRows joinType
    (shouldEmitUnmatchedBuild joinType buildSide) probed stream.matchedBuild none

/-- The padded build rows that no row of `probed` matches. -/
def unmatchedBuild (buildSide : JoinBuildSide) (joinType : JoinType) (build probed : Multiset (Row α)) :
    Multiset (JoinedRow α) :=
  if shouldEmitUnmatchedBuild joinType buildSide then
    (build.filter (Unmatched Row.ownedKey Row.ownedKey probed)).map fun row =>
      orient buildSide none (some row)
  else 0

/-- The unmatched build rows that are not emitted: all of them when there was no probe batch to
take the column types from, otherwise those a dense array does not hold. -/
def lostBuild (buildSide : JoinBuildSide) (joinType : JoinType) (dense : Option DenseI32BuildRows)
    (template : Bool) (build probed : Multiset (Row α)) : Multiset (JoinedRow α) :=
  if template then
    if shouldEmitUnmatchedBuild joinType buildSide then
      (lostByDense dense build).map fun row => orient buildSide none (some row)
    else 0
  else unmatchedBuild buildSide joinType build probed

/-- What the runs of this section assume of the build and of the plan. -/
structure RunContext (hashRowWithSalt : RowHash) (mode : HashBuildMode) (types : List DataType)
    (build : HashJoinBuild α) (buildSide : JoinBuildSide) (joinType : JoinType) : Prop where
  valid : build.Valid hashRowWithSalt mode (shouldEmitUnmatchedBuild joinType buildSide)
    build.batches types
  typed : Typed types build.batches
  types_ne : types ≠ []
  mode_semi : joinType = .semi → mode ≠ .fastSingleKey
  keySet_semi : buildsKeySet mode types = true → joinType = .semi
  semi_side : joinType = .semi → buildSide = .right

theorem RunContext.not_keySet (h : RunContext hashRowWithSalt mode types build buildSide joinType)
    (hemit : shouldEmitUnmatchedBuild joinType buildSide = true) : buildsKeySet mode types = false := by
  by_contra hk
  rw [h.keySet_semi (by simpa using hk)] at hemit
  cases buildSide <;> cases hemit

open HashJoinStream

variable (hashRowWithSalt) in
theorem drains_nothing {stream : HashJoinStream α} (hb : stream.built = true)
    (hbuild : stream.build = some build) (hin : stream.probeInput = [])
    (hp : stream.pendingOutput = [])
    (he : ∃ emitted, emitUnmatchedBuildIfNeeded build stream.matchedBuild stream.buildSide
      stream.joinType stream.probeTemplate stream.emittedUnmatchedBuild = .ok ([],emitted)) :
    Drains (next hashRowWithSalt) stream [] := by
  obtain ⟨emitted,he⟩ := he
  have hnext : next hashRowWithSalt stream = (stream.setProbeInput []).emitUnmatched := by
    rw [next_built hp hb,hin]
    rfl
  refine .done ?_
  rw [hnext,emitUnmatched_eq (by rw [build_setProbeInput,hbuild]) (by simpa using he)]

variable {probed : Multiset (Row α)} {rest : List (RecordBatch α)}

theorem drains_end (hc : RunContext hashRowWithSalt mode types build buildSide joinType) {stream : HashJoinStream α}
    (hr : Running build buildSide joinType probed [] stream) (hp : stream.pendingOutput = []) :
    ∃ out, Drains (next hashRowWithSalt) stream out ∧
      (↑out.flatten : Multiset (JoinedRow α)) + lostBuild buildSide joinType build.i32DenseUniqueRows
          stream.probeTemplate.isSome (allRows build.batches) probed =
        unmatchedBuild buildSide joinType (allRows build.batches) probed := by
  have hnothing := fun he => drains_nothing hashRowWithSalt hr.built hr.build_eq
    hr.probeInput_eq hp he
  rw [hr.buildSide_eq,hr.joinType_eq,hr.emitted] at hnothing
  unfold lostBuild unmatchedBuild
  by_cases hemit : shouldEmitUnmatchedBuild joinType buildSide = true
  · rw [if_pos hemit,if_pos hemit]
    cases ht : stream.probeTemplate with
    | none =>
      refine ⟨[],hnothing ⟨true,?_⟩,by simp⟩
      rw [ht]
      unfold emitUnmatchedBuildIfNeeded
      rw [if_neg (by simp [hemit])]
    | some template =>
      obtain ⟨tracker,hmb⟩ := Option.isSome_iff_exists.mp (hr.trackers.isSome_eq.trans hemit)
      have hv := hc.valid
      rw [hemit] at hv
      obtain ⟨bs,hbs,hsum⟩ := emitUnmatchedBuildIfNeeded_ok hv (hc.not_keySet hemit) hc.typed
        (hr.trackers.tracks tracker hmb) hemit template
      rw [Option.isSome_some,if_pos rfl]
      have hnext : next hashRowWithSalt stream = (stream.setProbeInput []).emitUnmatched := by
        rw [next_built hp hr.built,hr.probeInput_eq]
        rfl
      rw [emitUnmatched_eq (by rw [build_setProbeInput,hr.build_eq]) (by
        rw [matchedBuild_setProbeInput,buildSide_setProbeInput,joinType_setProbeInput,
          probeTemplate_setProbeInput,emittedUnmatchedBuild_setProbeInput,hmb,hr.buildSide_eq,
          hr.joinType_eq,ht,hr.emitted]
        exact hbs)] at hnext
      refine ⟨bs,?_,hsum⟩
      cases bs with
      | nil => exact .done (by rw [hnext])
      | cons first others =>
        dsimp only at hnext
        rw [pendingOutput_setProbeInput,hp,List.nil_append] at hnext
        refine Drains.step hnext ?_
        have hend : Drains (next hashRowWithSalt)
            (((stream.setProbeInput []).setEmittedUnmatchedBuild true).setPendingOutput []) [] := by
          refine drains_nothing _ ((built_setProbeInput ..).trans hr.built)
            ((build_setProbeInput ..).trans hr.build_eq) (probeInput_setProbeInput ..) rfl ⟨true,?_⟩
          exact if_pos (Or.inr rfl)
        have hout := Drains.append others _ (next_pending _) hend
        rwa [List.append_nil] at hout
  · rw [if_neg hemit]
    refine ⟨[],hnothing ⟨false,?_⟩,?_⟩
    · unfold emitUnmatchedBuildIfNeeded
      rw [if_pos (Or.inl (by simpa using hemit))]
    · rw [if_neg hemit,ite_self]
      rfl

theorem Running.readProbe {probe : RecordBatch α} {stream : HashJoinStream α}
    (hr : Running build buildSide joinType probed (probe :: rest) stream)
    {probed' : Multiset (Row α)} {mb : Option MatchedBuildTracker}
    (ht : TrackersFor build.batches build.i32DenseUniqueRows joinType
      (shouldEmitUnmatchedBuild joinType buildSide) probed' mb none) :
    Running build buildSide joinType probed' rest
      ((stream.readProbe probe (rest.map .ok)).setMatchedBuild mb) where
  built := (built_readProbe ..).trans hr.built
  build_eq := (build_readProbe ..).trans hr.build_eq
  buildSide_eq := (buildSide_readProbe ..).trans hr.buildSide_eq
  joinType_eq := (joinType_readProbe ..).trans hr.joinType_eq
  probeInput_eq := probeInput_readProbe ..
  emitted := (emittedUnmatchedBuild_readProbe ..).trans hr.emitted
  trackers := ht

variable (hashRowWithSalt) in
/-- A call that reads a probe batch: it goes on behind it, yields its batches or fails. -/
theorem next_probe {probe : RecordBatch α} {stream : HashJoinStream α}
    (hr : Running build buildSide joinType probed (probe :: rest) stream)
    (hp : stream.pendingOutput = []) : next hashRowWithSalt stream =
      if probe.numRows = 0 then next hashRowWithSalt (stream.readProbe probe (rest.map .ok))
      else match probeHashJoinBatches hashRowWithSalt probe build buildSide joinType
          stream.matchedBuild none none with
        | .error error => (some (.error error),stream.readProbe probe (rest.map .ok))
        | .ok output =>
          match output.batches with
          | [] => next hashRowWithSalt
              ((stream.readProbe probe (rest.map .ok)).setMatchedBuild output.matchedBuild)
          | first :: others => (some (.ok first),((stream.readProbe probe (rest.map .ok)).setMatchedBuild
              output.matchedBuild).setPendingOutput others) := by
  rw [next_built hp hr.built,hr.probeInput_eq,List.map_cons]
  unfold probeLoop
  dsimp only
  split_ifs with hempty
  · rw [next_built (by simp [hp]) (by simp [hr.built]),probeInput_readProbe]
  · rw [build_readProbe,buildSide_readProbe,joinType_readProbe,matchedBuild_readProbe,hr.build_eq,
      hr.buildSide_eq,hr.joinType_eq]
    dsimp only
    cases probeHashJoinBatches hashRowWithSalt probe build buildSide joinType stream.matchedBuild
      none none with
    | error error => rfl
    | ok output =>
      have hread : ((stream.readProbe probe (rest.map .ok)).setMatchedBuild
          output.matchedBuild).pendingOutput = [] := (pendingOutput_readProbe ..).trans hp
      have hinput : ((stream.readProbe probe (rest.map .ok)).setMatchedBuild
          output.matchedBuild).probeInput = rest.map .ok := probeInput_readProbe ..
      dsimp only
      cases output.batches with
      | nil =>
        rw [next_built hread ((built_readProbe ..).trans hr.built),hinput]
      | cons first others =>
        dsimp only
        rw [hread,List.nil_append]
        rfl

/-- The run over one probe batch, up to the state that has read it and emitted its output. -/
theorem drains_probe (hc : RunContext hashRowWithSalt mode types build buildSide joinType) {probe : RecordBatch α}
    {stream : HashJoinStream α}
    (hr : Running build buildSide joinType probed (probe :: rest) stream)
    (hp : stream.pendingOutput = []) (hprobe : probe.keyTypes = types) :
    (Indexable (rowOutput buildSide joinType (allRows build.batches)) probe.rows →
      ∃ batches after, Running build buildSide joinType (probed + ↑probe.rows) rest after ∧
        after.pendingOutput = [] ∧ after.probeTemplate.isSome = true ∧
        (↑batches.flatten : Multiset (JoinedRow α)) = (↑probe.rows : Multiset (Row α)).bind
          (rowOutput buildSide joinType (allRows build.batches)) ∧
        (∀ out, Drains (next hashRowWithSalt) after out →
          Drains (next hashRowWithSalt) stream (batches ++ out)) ∧
        ∀ out, Drains (next hashRowWithSalt) stream out →
          ∃ out', Drains (next hashRowWithSalt) after out') ∧
    (¬ Indexable (rowOutput buildSide joinType (allRows build.batches)) probe.rows →
      ∀ out, ¬ Drains (next hashRowWithSalt) stream out) := by
  have hnext := next_probe hashRowWithSalt hr hp
  have htemplate : ∀ mb, ((stream.readProbe probe (rest.map .ok)).setMatchedBuild
      mb).probeTemplate.isSome = true := by
    intro mb
    change (stream.readProbe probe (rest.map .ok)).probeTemplate.isSome = true
    rw [probeTemplate_readProbe]
    cases stream.probeTemplate <;> rfl
  have hwaiting : ∀ mb, ((stream.readProbe probe (rest.map .ok)).setMatchedBuild
      mb).pendingOutput = [] := fun _ => (pendingOutput_readProbe ..).trans hp
  by_cases hempty : probe.numRows = 0
  · have hrows : probe.rows = [] := List.length_eq_zero_iff.mp hempty
    rw [if_pos hempty] at hnext
    refine ⟨fun _ => ⟨[],_,hr.readProbe ?_,hwaiting stream.matchedBuild,htemplate _,?_,?_,?_⟩,
      fun hi => absurd ?_ hi⟩
    · rw [hrows,Multiset.coe_nil,add_zero]
      exact hr.trackers
    · rw [hrows]
      rfl
    · intro out hd
      rw [← matchedBuild_readProbe stream (rest.map .ok) probe] at hd
      exact (Drains.congr hnext).mpr hd
    · intro out hd
      rw [← matchedBuild_readProbe stream (rest.map .ok) probe]
      exact ⟨out,(Drains.congr hnext).mp hd⟩
    · rw [hrows]
      rintro _ _ ⟨⟩
  · rw [if_neg hempty] at hnext
    obtain ⟨hok,herr⟩ := probeHashJoinBatches_spec hc.valid hc.typed hprobe hc.types_ne hc.mode_semi
      hc.keySet_semi hc.semi_side hr.trackers
    refine ⟨fun hi => ?_,fun hi => ?_⟩
    · obtain ⟨o,ho,hsum,htrack⟩ := hok hi
      rw [ho] at hnext
      dsimp only at hnext
      refine ⟨o.batches,_,hr.readProbe (htrack.keys_none ▸ htrack),hwaiting _,htemplate _,hsum,?_⟩
      cases hbatches : o.batches with
      | nil =>
        rw [hbatches] at hnext
        exact ⟨fun out hd => (Drains.congr hnext).mpr hd,
          fun out hd => ⟨out,(Drains.congr hnext).mp hd⟩⟩
      | cons first others =>
        rw [hbatches] at hnext
        have hlast := setPendingOutput_nil (hwaiting o.matchedBuild)
        refine ⟨fun out hd => .step hnext (.append others _ (next_pending _) ?_),fun out hd => ?_⟩
        · rwa [hlast]
        · obtain ⟨_,hd⟩ := hd.of_step hnext
          obtain ⟨out',hd⟩ := Drains.of_append others _ (next_pending _) hd
          rw [hlast] at hd
          exact ⟨out',hd⟩
    · obtain ⟨e,he⟩ := herr hi
      rw [he] at hnext
      exact fun out => Drains.not_of_error (by rw [hnext])

/-- A run over all probe batches, from any state in which none waits. -/
theorem drains_running (hc : RunContext hashRowWithSalt mode types build buildSide joinType) {stream : HashJoinStream α}
    (hr : Running build buildSide joinType probed rest stream) (hp : stream.pendingOutput = [])
    (htypes : Typed types rest) :
    ((∀ probe ∈ rest, Indexable (rowOutput buildSide joinType (allRows build.batches)) probe.rows) →
      ∃ out, Drains (next hashRowWithSalt) stream out ∧ (↑out.flatten : Multiset (JoinedRow α)) +
            lostBuild buildSide joinType build.i32DenseUniqueRows
              (stream.probeTemplate.isSome || !rest.isEmpty) (allRows build.batches)
              (probed + allRows rest) =
          (allRows rest).bind (rowOutput buildSide joinType (allRows build.batches)) +
            unmatchedBuild buildSide joinType (allRows build.batches) (probed + allRows rest)) ∧
    ((¬ ∀ probe ∈ rest,
        Indexable (rowOutput buildSide joinType (allRows build.batches)) probe.rows) →
      ∀ out, ¬ Drains (next hashRowWithSalt) stream out) := by
  induction rest generalizing probed stream with
  | nil =>
    refine ⟨fun _ => ?_,fun hi => absurd (fun _ hm => absurd hm (List.not_mem_nil)) hi⟩
    obtain ⟨out,hd,hsum⟩ := drains_end hc hr hp
    refine ⟨out,hd,?_⟩
    rw [allRows_nil,add_zero,Multiset.zero_bind,zero_add,List.isEmpty_nil,Bool.not_true,Bool.or_false]
    exact hsum
  | cons probe rest ih =>
    obtain ⟨hok,herr⟩ := drains_probe hc hr hp (htypes probe (List.mem_cons_self ..))
    have hrest : Typed types rest := fun b hb => htypes b (List.mem_cons_of_mem _ hb)
    by_cases hi : Indexable (rowOutput buildSide joinType (allRows build.batches)) probe.rows
    · obtain ⟨batches,after,hafter,hwaiting,htemplate,hsum,hinto,hfrom⟩ := hok hi
      obtain ⟨ihok,iherr⟩ := ih hafter hwaiting hrest
      refine ⟨fun hall => ?_,fun hnot out hd => ?_⟩
      · obtain ⟨out,hd,hrun⟩ := ihok fun b hb => hall b (List.mem_cons_of_mem _ hb)
        refine ⟨batches ++ out,hinto out hd,?_⟩
        rw [htemplate,Bool.true_or] at hrun
        rw [List.isEmpty_cons,Bool.not_false,Bool.or_true,allRows_cons,Multiset.add_bind,
          List.flatten_append,← Multiset.coe_add,hsum,← add_assoc probed,
          add_assoc (Multiset.bind _ _),hrun]
        exact (add_assoc ..).symm
      · obtain ⟨out',hd⟩ := hfrom out hd
        exact iherr (fun hall => hnot (List.forall_mem_cons.mpr ⟨hi,hall⟩)) out' hd
    · exact ⟨fun hall => absurd (hall probe (List.mem_cons_self ..)) hi,fun _ => herr hi⟩

end Run
end Dodam.Execution
