import Dodam.Execution.HashJoin.Build

/-! # Probing the hash side of a join

One loop for each shape of layout: membership (semi joins on one Int32 key), one reference for
each key, a list of references, and the general row format with its Bloom filter.
-/
namespace Dodam.Execution
open Foundation

inductive JoinBuildSide
  | left
  | right
deriving DecidableEq, Repr

abbrev JoinType := JoinKind

def joinOutputChunkRows : ℕ := 8192

/-- A row of the join output: either side may be padded with NULLs. -/
abbrev JoinedRow (α : Type) := Option (Row α) × Option (Row α)
abbrev OutputBatch (α : Type) := List (JoinedRow α)

/-- The left and the right half of an output row, from its probe and build halves. -/
def orient {α : Type} (buildSide : JoinBuildSide) (probe build : Option (Row α)) : JoinedRow α :=
  match buildSide with
  | .left => (build,probe)
  | .right => (probe,build)

/-- The probe side is preserved: the guard of `push_unmatched_probe_if_outer` and
`push_unmatched_probe_match`. -/
def preservesProbe (joinType : JoinType) (buildSide : JoinBuildSide) : Bool :=
  match joinType,buildSide with
  | .left,.right => true
  | .right,.left => true
  | .full,_ => true
  | _,_ => false

def shouldEmitUnmatchedBuild (joinType : JoinType) (buildSide : JoinBuildSide) : Bool :=
  match joinType,buildSide with
  | .full,_ => true
  | .left,.left => true
  | .right,.right => true
  | _,_ => false

def shouldTrackMatchedBuild (joinType : JoinType) (buildSide : JoinBuildSide) : Bool :=
  shouldEmitUnmatchedBuild joinType buildSide

structure HashJoinMaterializeContext (α : Type) where
  probe : RecordBatch α
  build : HashJoinBuild α
  buildSide : JoinBuildSide

section Materialize
variable {α : Type}

def takeBuildRow (build : HashJoinBuild α) (buildRef : BuildRowRef) : Result (Row α) :=
  match build.batches[buildRef.batch]? with
  | none => unsupportedSql "hash join build row reference is out of range"
  | some batch =>
    match batch.rows[buildRef.row]? with
    | none => .error .panicked
    | some row => .ok row

def takeProbeRow (probe : RecordBatch α) (probeRow : ℕ) : Result (Row α) :=
  match probe.rows[probeRow]? with
  | none => .error .panicked
  | some row => .ok row

def materializeHashJoinPairs (context : HashJoinMaterializeContext α)
    (pairs : List (ℕ × BuildRowRef)) : Result (OutputBatch α) :=
  pairs.mapM fun pair => do
    let probe ← takeProbeRow context.probe pair.1
    let build ← takeBuildRow context.build pair.2
    return orient context.buildSide (some probe) (some build)

def materializeSemiJoinRows (context : HashJoinMaterializeContext α) (probeIndices : List ℕ) :
    Result (OutputBatch α) :=
  probeIndices.mapM fun index => do
    let probe ← takeProbeRow context.probe index
    return (some probe,none)

def materializeUnmatchedProbeMatches (context : HashJoinMaterializeContext α)
    (probeIndices : List ℕ) : Result (OutputBatch α) :=
  probeIndices.mapM fun index => do
    let probe ← takeProbeRow context.probe index
    return orient context.buildSide (some probe) none

end Materialize

/-- The buffers of a probe and what it marks. -/
structure ProbeState (α : Type) where
  pairs : List (ℕ × BuildRowRef)
  semiIndices : List ℕ
  unmatchedProbeIndices : List ℕ
  output : List (OutputBatch α)
  matchedBuild : Option MatchedBuildTracker
  matchedProbeKeys : Option (Finset OwnedRow)

def ProbeState.init {α : Type} (matchedBuild : Option MatchedBuildTracker)
    (matchedProbeKeys : Option (Finset OwnedRow)) : ProbeState α :=
  ⟨[],[],[],[],matchedBuild,matchedProbeKeys⟩

structure ProbeOutput (α : Type) where
  batches : List (OutputBatch α)
  matchedBuild : Option MatchedBuildTracker
  matchedProbeKeys : Option (Finset OwnedRow)

def rowsPerSideMessage : String := "hash join currently supports up to u32::MAX rows per side"
def outerRowsMessage : String := "outer hash join currently supports up to u32::MAX rows per batch"
def semiSideMessage : String :=
  "SEMI JOIN currently expects the right side as hash build input"

section Push
variable {α : Type} (context : HashJoinMaterializeContext α)

def pushHashJoinMatch (probeRow : ℕ) (state : ProbeState α) (buildRef : BuildRowRef) :
    Result (ProbeState α) :=
  let pairs := state.pairs ++ [(probeRow,buildRef)]
  if joinOutputChunkRows ≤ pairs.length then do
    let batch ← materializeHashJoinPairs context pairs
    return { state with pairs := [], output := state.output ++ [batch] }
  else .ok { state with pairs := pairs }

def pushHashJoinMatches (probeRow : ℕ) (buildRefs : List BuildRowRef) (state : ProbeState α) :
    Result (ProbeState α) :=
  buildRefs.foldlM (pushHashJoinMatch context probeRow) state

def pushSemiIndex (probeRow : ℕ) (state : ProbeState α) : Result (ProbeState α) :=
  let semiIndices := state.semiIndices ++ [probeRow]
  if joinOutputChunkRows ≤ semiIndices.length then do
    let batch ← materializeSemiJoinRows context semiIndices
    return { state with semiIndices := [], output := state.output ++ [batch] }
  else .ok { state with semiIndices := semiIndices }

def pushSemiJoinMatch (probeRow : ℕ) (state : ProbeState α) : Result (ProbeState α) :=
  if context.buildSide ≠ .right then unsupportedSql semiSideMessage
  else pushSemiIndex context probeRow state

def pushUnmatchedProbeIfOuter (joinType : JoinType) (probeRow : ℕ) (state : ProbeState α) :
    Result (ProbeState α) :=
  if preservesProbe joinType context.buildSide = false then .ok state
  else do
    let probeRow ← u32TryFrom probeRow outerRowsMessage
    let probe ← takeProbeRow context.probe probeRow
    return { state with output := state.output ++ [[orient context.buildSide (some probe) none]] }

def pushUnmatchedProbeMatch (joinType : JoinType) (probeRow : ℕ) (state : ProbeState α) :
    Result (ProbeState α) :=
  if preservesProbe joinType context.buildSide = false then .ok state
  else do
    let probeRow ← u32TryFrom probeRow outerRowsMessage
    let indices := state.unmatchedProbeIndices ++ [probeRow]
    if joinOutputChunkRows ≤ indices.length then do
      let batch ← materializeUnmatchedProbeMatches context indices
      return { state with unmatchedProbeIndices := [], output := state.output ++ [batch] }
    else return { state with unmatchedProbeIndices := indices }

/-- The batches left in the buffers after the last row. -/
def flushProbe (state : ProbeState α) : Result (ProbeOutput α) := do
  let pairs ← materializeHashJoinPairs context state.pairs
  let semi ← materializeSemiJoinRows context state.semiIndices
  let unmatched ← materializeUnmatchedProbeMatches context state.unmatchedProbeIndices
  let rest := [pairs,semi,unmatched].filter fun batch => !batch.isEmpty
  return ⟨state.output ++ rest,state.matchedBuild,state.matchedProbeKeys⟩

end Push

def debugTypes (types : List DataType) : String :=
  "[" ++ ", ".intercalate (types.map DataType.debug) ++ "]"

def joinKeyTypesMessage (probeTypes buildTypes : List DataType) : String :=
  s!"JOIN key types must match: probe side is {debugTypes probeTypes}, build side is {debugTypes buildTypes}"

def probeKeyCountMessage (path count : String) : String := s!"{path} fast path expects exactly {count}"

/-- The checks at the head of a typed path: the number of probe keys, then their types. -/
def withProbeKeyTypes {α β : Type} (path : String) (types : List DataType)
    (context : HashJoinMaterializeContext α) (probe : Result β) : Result β :=
  if context.probe.keyTypes.length ≠ types.length then
    unsupportedSql (probeKeyCountMessage path
      (if types.length = 1 then "one probe key" else "two probe keys"))
  else if context.probe.keyTypes ≠ types then
    unsupportedSql (joinKeyTypesMessage context.probe.keyTypes context.build.keyDataTypes)
  else probe

section Paths
variable {α : Type} (context : HashJoinMaterializeContext α) (joinType : JoinType)

/-- Every row of the probe batch in order, then the flush. -/
def probeRows (body : ProbeState α → Row α × ℕ → Result (ProbeState α)) (state : ProbeState α) :
    Result (ProbeOutput α) := do
  let state ← context.probe.rows.zipIdx.foldlM body state
  flushProbe context state

/-- The membership loop of the Int32 semi joins. -/
def probeKeySet (contains : Int32 → Bool) (state : ProbeState α) : Result (ProbeOutput α) :=
  probeRows context (fun state row =>
    match int32Layout.read row.1.key with
    | none => .ok state
    | some key =>
      if contains key then do
        let probeRow ← u32TryFrom row.2 rowsPerSideMessage
        pushSemiIndex context probeRow state
      else .ok state) state

/-- The loop of the layouts with one reference for each key. A NULL key and an absent key
are handled alike; the null-free branches walk the same rows in blocks. -/
def probeUnique (handlesSemi : Bool) (find : List (Option KeyValue) → Option BuildRowRef)
    (mark : MatchedBuildTracker → List (Option KeyValue) → BuildRowRef → MatchedBuildTracker)
    (unmatched : JoinType → ℕ → ProbeState α → Result (ProbeState α)) (state : ProbeState α) :
    Result (ProbeOutput α) :=
  probeRows context (fun state row =>
    match find row.1.key with
    | none => unmatched joinType row.2 state
    | some buildRef => do
      let state := { state with
        matchedBuild := state.matchedBuild.map fun tracker => mark tracker row.1.key buildRef }
      let probeRow ← u32TryFrom row.2 rowsPerSideMessage
      if handlesSemi ∧ joinType = .semi then pushSemiJoinMatch context probeRow state
      else pushHashJoinMatch context probeRow state buildRef) state

/-- The loop of the layouts with a list of references for each key. -/
def probeMulti (find : List (Option KeyValue) → Option (List BuildRowRef))
    (state : ProbeState α) : Result (ProbeOutput α) :=
  probeRows context (fun state row =>
    match find row.1.key with
    | none => pushUnmatchedProbeIfOuter context joinType row.2 state
    | some buildRefs => do
      let state := { state with
        matchedBuild := state.matchedBuild.map fun tracker => tracker.markRefs buildRefs }
      let probeRow ← u32TryFrom row.2 rowsPerSideMessage
      if joinType = .semi then pushSemiJoinMatch context probeRow state
      else pushHashJoinMatches context probeRow buildRefs state) state

def probeI32DenseSemiJoinBatches (keys : DenseI32KeySet) (state : ProbeState α) :
    Result (ProbeOutput α) :=
  if context.buildSide ≠ .right then unsupportedSql semiSideMessage
  else withProbeKeyTypes "Int32 SEMI JOIN" [.int32] context
    (probeKeySet context keys.contains state)

def probeI32SemiJoinBatches (keys : List Int32) (state : ProbeState α) : Result (ProbeOutput α) :=
  if context.buildSide ≠ .right then unsupportedSql semiSideMessage
  else withProbeKeyTypes "Int32 SEMI JOIN" [.int32] context
    (probeKeySet context (fun key => decide (key ∈ keys)) state)

/-- Unlike its siblings it marks the key, not the reference, and buffers unmatched rows. -/
def probeI32DenseUniqueHashJoinBatches (rows : DenseI32BuildRows) (state : ProbeState α) :
    Result (ProbeOutput α) :=
  withProbeKeyTypes "Int32 dense hash join" [.int32] context
    (probeUnique context joinType false (fun key => (int32Layout.read key).bind rows.get)
      (fun tracker key _ => ((int32Layout.read key).map tracker.markI32Key).getD tracker)
      (pushUnmatchedProbeMatch context) state)

def probeI32UniqueHashJoinBatches (rows : Map Int32 BuildRowRef) (state : ProbeState α) :
    Result (ProbeOutput α) :=
  withProbeKeyTypes "Int32 unique hash join" [.int32] context
    (probeUnique context joinType false (fun key => (int32Layout.read key).bind rows.lookup)
      (fun tracker _ => tracker.markRef) (pushUnmatchedProbeIfOuter context) state)

def probeI32DenseHashJoinBatches (rows : DenseI32MultiBuildRows) (state : ProbeState α) :
    Result (ProbeOutput α) :=
  withProbeKeyTypes "Int32 hash join" [.int32] context
    (probeMulti context joinType (fun key => (int32Layout.read key).bind rows.get) state)

def probeI32HashJoinBatches (rows : Map Int32 (List BuildRowRef)) (state : ProbeState α) :
    Result (ProbeOutput α) :=
  withProbeKeyTypes "Int32 hash join" [.int32] context
    (probeMulti context joinType (fun key => (int32Layout.read key).bind rows.lookup) state)

def probeI64DenseUniqueHashJoinBatches (rows : DenseI64BuildRows) (state : ProbeState α) :
    Result (ProbeOutput α) :=
  withProbeKeyTypes "Int64 dense hash join" [.int64] context
    (probeUnique context joinType false
      (fun key => (int64Layout.read key).bind (DenseI64BuildRows.get rows))
      (fun tracker _ => tracker.markRef) (pushUnmatchedProbeIfOuter context) state)

def probeI64UniqueHashJoinBatches (rows : Map Int64 BuildRowRef) (state : ProbeState α) :
    Result (ProbeOutput α) :=
  withProbeKeyTypes "Int64 unique hash join" [.int64] context
    (probeUnique context joinType false (fun key => (int64Layout.read key).bind rows.lookup)
      (fun tracker _ => tracker.markRef) (pushUnmatchedProbeIfOuter context) state)

def probeI64HashJoinBatches (rows : Map Int64 (List BuildRowRef)) (state : ProbeState α) :
    Result (ProbeOutput α) :=
  withProbeKeyTypes "Int64 hash join" [.int64] context
    (probeMulti context joinType (fun key => (int64Layout.read key).bind rows.lookup) state)

def probeI32PairDenseUniqueHashJoinBatches (rows : DenseI32PairBuildRows) (state : ProbeState α) :
    Result (ProbeOutput α) :=
  withProbeKeyTypes "Int32 pair dense unique hash join" [.int32,.int32] context
    (probeUnique context joinType true (fun key => (int32PairLayout.read key).bind rows.get)
      (fun tracker _ => tracker.markRef) (pushUnmatchedProbeIfOuter context) state)

def probeI32PairUniqueHashJoinBatches (rows : Map (Int32 × Int32) BuildRowRef)
    (state : ProbeState α) : Result (ProbeOutput α) :=
  withProbeKeyTypes "Int32 pair unique hash join" [.int32,.int32] context
    (probeUnique context joinType true (fun key => (int32PairLayout.read key).bind rows.lookup)
      (fun tracker _ => tracker.markRef) (pushUnmatchedProbeIfOuter context) state)

def probeI32PairHashJoinBatches (rows : Map (Int32 × Int32) (List BuildRowRef))
    (state : ProbeState α) : Result (ProbeOutput α) :=
  withProbeKeyTypes "Int32 pair hash join" [.int32,.int32] context
    (probeMulti context joinType (fun key => (int32PairLayout.read key).bind rows.lookup) state)

def probeStringUniqueHashJoinBatches (rows : Map String BuildRowRef) (state : ProbeState α) :
    Result (ProbeOutput α) :=
  withProbeKeyTypes "String unique hash join" [.utf8] context
    (probeUnique context joinType true (fun key => (utf8Layout.read key).bind rows.lookup)
      (fun tracker _ => tracker.markRef) (pushUnmatchedProbeIfOuter context) state)

def probeStringHashJoinBatches (rows : Map String (List BuildRowRef)) (state : ProbeState α) :
    Result (ProbeOutput α) :=
  withProbeKeyTypes "String hash join" [.utf8] context
    (probeMulti context joinType (fun key => (utf8Layout.read key).bind rows.lookup) state)

/-- The general path: Bloom filter, excluded keys, normal rows, then heavy rows. -/
def probeRowFormat (hashRowWithSalt : RowHash) (excludedProbeKeys : Option (Finset OwnedRow))
    (state : ProbeState α) : Result (ProbeOutput α) :=
  probeRows context (fun state row =>
    match row.1.ownedKey with
    | none => pushUnmatchedProbeIfOuter context joinType row.2 state
    | some key =>
      if excludedProbeKeys.any fun excluded => decide (key ∈ excluded) then .ok state
      else if context.build.bloom.mightContain hashRowWithSalt key = false then
        pushUnmatchedProbeIfOuter context joinType row.2 state
      else
        match (context.build.rows.lookup key).or (context.build.heavyRows.lookup key) with
        | none => pushUnmatchedProbeIfOuter context joinType row.2 state
        | some buildRefs => do
          let state := { state with
            matchedBuild := state.matchedBuild.map fun tracker => tracker.markRefs buildRefs
            matchedProbeKeys := state.matchedProbeKeys.map fun keys => insert key keys }
          let probeRow ← u32TryFrom row.2 rowsPerSideMessage
          if joinType = .semi then pushSemiJoinMatch context probeRow state
          else pushHashJoinMatches context probeRow buildRefs state) state

/-- The layouts of one kind of key in the order in which a probe looks for them; without any,
the general path. -/
def probeLayouts (general : ProbeState α → Result (ProbeOutput α)) (state : ProbeState α) :
    Result (ProbeOutput α) :=
  let build := context.build
  match build.i32DenseUniqueRows,build.i32UniqueRows,build.i32DenseRows,build.i32Rows with
  | some rows,_,_,_ => probeI32DenseUniqueHashJoinBatches context joinType rows state
  | none,some rows,_,_ => probeI32UniqueHashJoinBatches context joinType rows state
  | none,none,some rows,_ => probeI32DenseHashJoinBatches context joinType rows state
  | none,none,none,some rows => probeI32HashJoinBatches context joinType rows state
  | none,none,none,none =>
    match build.i64DenseUniqueRows,build.i64UniqueRows,build.i64Rows with
    | some rows,_,_ => probeI64DenseUniqueHashJoinBatches context joinType rows state
    | none,some rows,_ => probeI64UniqueHashJoinBatches context joinType rows state
    | none,none,some rows => probeI64HashJoinBatches context joinType rows state
    | none,none,none =>
      match build.i32PairDenseUniqueRows,build.i32PairUniqueRows,build.i32PairRows with
      | some rows,_,_ => probeI32PairDenseUniqueHashJoinBatches context joinType rows state
      | none,some rows,_ => probeI32PairUniqueHashJoinBatches context joinType rows state
      | none,none,some rows => probeI32PairHashJoinBatches context joinType rows state
      | none,none,none =>
        match build.stringUniqueRows,build.stringRows with
        | some rows,_ => probeStringUniqueHashJoinBatches context joinType rows state
        | none,some rows => probeStringHashJoinBatches context joinType rows state
        | none,none => general state

def probeGeneral (hashRowWithSalt : RowHash) (excludedProbeKeys : Option (Finset OwnedRow))
    (state : ProbeState α) : Result (ProbeOutput α) :=
  if context.probe.keyTypes = [] then unsupportedSql "JOIN requires at least one key column"
  else if context.probe.keyTypes ≠ context.build.keyDataTypes then
    unsupportedSql (joinKeyTypesMessage context.probe.keyTypes context.build.keyDataTypes)
  else probeRowFormat context joinType hashRowWithSalt excludedProbeKeys state

end Paths

/-- `probe_hash_join_batches`: the first layout present decides the path. A probe with excluded
or tracked keys takes the general path. -/
def probeHashJoinBatches {α : Type} (hashRowWithSalt : RowHash) (probe : RecordBatch α)
    (build : HashJoinBuild α) (buildSide : JoinBuildSide) (joinType : JoinType)
    (matchedBuild : Option MatchedBuildTracker) (excludedProbeKeys : Option (Finset OwnedRow))
    (matchedProbeKeys : Option (Finset OwnedRow)) : Result (ProbeOutput α) :=
  let context : HashJoinMaterializeContext α := ⟨probe,build,buildSide⟩
  let state := ProbeState.init matchedBuild matchedProbeKeys
  let general := probeGeneral context joinType hashRowWithSalt excludedProbeKeys
  if excludedProbeKeys.isSome ∨ matchedProbeKeys.isSome then general state
  else
    match (if joinType = .semi then build.i32DenseKeySet else none),
        (if joinType = .semi then build.i32KeySet else none) with
    | some keys,_ => probeI32DenseSemiJoinBatches context keys state
    | none,some keys => probeI32SemiJoinBatches context keys state
    | none,none => probeLayouts context joinType general state

section Unmatched
variable {α : Type}

def materializeUnmatchedBuildRows (build : HashJoinBuild α) (buildSide : JoinBuildSide)
    (buildRefs : List BuildRowRef) : Result (OutputBatch α) :=
  buildRefs.mapM fun buildRef => do
    let row ← takeBuildRow build buildRef
    return orient buildSide none (some row)

/-- One more unmatched reference; a full chunk becomes a batch. -/
def pushUnmatchedBuildRow (build : HashJoinBuild α) (buildSide : JoinBuildSide)
    (state : List BuildRowRef × List (OutputBatch α)) (buildRef : BuildRowRef) :
    Result (List BuildRowRef × List (OutputBatch α)) :=
  let unmatched := state.1 ++ [buildRef]
  if joinOutputChunkRows ≤ unmatched.length then do
    let batch ← materializeUnmatchedBuildRows build buildSide unmatched
    return ([],state.2 ++ [batch])
  else .ok (unmatched,state.2)

/-- The references in chunks of at most `joinOutputChunkRows`. -/
def emitUnmatchedChunks (build : HashJoinBuild α) (buildSide : JoinBuildSide)
    (buildRefs : List BuildRowRef) : Result (List (OutputBatch α)) := do
  let state ← buildRefs.foldlM (pushUnmatchedBuildRow build buildSide) ([],[])
  if state.1.isEmpty then return state.2
  else do
    let batch ← materializeUnmatchedBuildRows build buildSide state.1
    return state.2 ++ [batch]

/-- The references the final pass emits: the unmarked slots of a dense Int32 array, or the
unmarked rows among all rows. -/
def unmatchedBuildRefs (build : HashJoinBuild α) (matchedBuild : MatchedBuildTracker) :
    List BuildRowRef :=
  match build.i32DenseUniqueRows,matchedBuild with
  | some rows,.denseI32 _ isMatched _ => rows.slots.unmatched isMatched
  | _,_ => build.allRows.filter fun buildRef => !matchedBuild.isMatched buildRef

/-- `emit_unmatched_build_if_needed`, with the flag that it sets. -/
def emitUnmatchedBuildIfNeeded (build : HashJoinBuild α)
    (matchedBuild : Option MatchedBuildTracker) (buildSide : JoinBuildSide) (joinType : JoinType)
    (probeTemplate : Option (RecordBatch α)) (emitted : Bool) :
    Result (List (OutputBatch α) × Bool) :=
  if shouldEmitUnmatchedBuild joinType buildSide = false ∨ emitted then .ok ([],emitted)
  else
    match probeTemplate with
    | none => .ok ([],true)
    | some _ =>
      let matchedBuild := matchedBuild.getD MatchedBuildTracker.emptySet
      if matchedBuild.allDenseI32Matched then .ok ([],true)
      else do
        let batches ← emitUnmatchedChunks build buildSide (unmatchedBuildRefs build matchedBuild)
        return (batches,true)

end Unmatched
end Dodam.Execution
