import Dodam.Execution.HashJoin.Layout

/-! # Building the hash side of a join

`build_hash_join_input` with its two dense attempts. Rows are visited batch by
batch; an index that does not fit 32 bits is reported, a slot outside a dense
array is a panic.
-/
namespace Dodam.Execution
open Foundation

inductive HashBuildMode
  | full
  | fastSingleKey
  | fastSemi
deriving DecidableEq, Repr

/-- `u32::try_from(row)`. -/
def u32TryFrom (row : ℕ) (message : String) : Result ℕ :=
  if row < 2 ^ 32 then .ok row else unsupportedSql message

def rowsPerBatchMessage : String := "hash join currently supports up to u32::MAX rows per batch"

def totalRows {α : Type*} (batches : List (RecordBatch α)) : ℕ :=
  (batches.map RecordBatch.numRows).sum

/-- `total_rows.saturating_mul(4).max(1024)`: the widest dense array. -/
def denseWidthLimit (totalRows : ℕ) : ℕ := max (min (totalRows * 4) (maxUnsigned 64)) 1024

/-- `dense[index] = Some(row)` for every entry. -/
def fillDense {ρ : Type*} (width : ℕ) (entries : List (ℕ × ρ)) : Result (List (Option ρ)) :=
  entries.foldlM (fun dense entry =>
    if entry.1 < dense.length then .ok (dense.set entry.1 (some entry.2)) else .error .panicked)
    (List.replicate width none)

/-- `row.expect(..)` on every slot. -/
def expectAll {ρ : Type*} (dense : List (Option ρ)) : Result (List ρ) :=
  dense.mapM fun row => match row with
    | some row => .ok row
    | none => .error .panicked

def packDense {ρ : Type*} (dense : List (Option ρ)) (rows : ℕ) : Result (DenseSlots ρ) :=
  if dense.length = rows then .complete <$> expectAll dense else .ok (.sparse dense)

/-- `(key - min) as usize` on 32-bit keys. -/
def denseI32Index (key min : ℤ) : ℕ := asUnsigned 64 (wrapSigned 32 (key - min))

/-- The smallest Int32 key of the entries and their array by distance from it, unless the keys
span more than the limit. -/
def denseI32Slots {ρ : Type*} (entries : List (Int32 × ρ)) (totalRows : ℕ) :
    Result (Option (ℤ × List (Option ρ))) :=
  let keys := entries.map fun entry => entry.1.toInt
  match keys.min?,keys.max? with
  | some min,some max =>
    let width := (max - min + 1).toNat
    if denseWidthLimit totalRows < width then .ok none
    else do
      let dense ← fillDense width (entries.map fun entry =>
        (denseI32Index entry.1.toInt min,entry.2))
      return some (min,dense)
  | _,_ => .ok none

/-- The dense array of a map on Int32 keys: `dense_i32_build_rows` and
`dense_i32_multi_build_rows`. -/
def denseI32Rows {ρ : Type*} (rows : Map Int32 ρ) (totalRows : ℕ) :
    Result (Option (DenseRows ρ)) := do
  match ← denseI32Slots (Map.toPairs rows) totalRows with
  | none => return none
  | some (min,dense) =>
    let slots ← packDense dense rows.entries.length
    return some ⟨min,slots⟩

def denseI32BuildRows (rows : Map Int32 BuildRowRef) (totalRows : ℕ) :
    Result (Option DenseI32BuildRows) :=
  denseI32Rows rows totalRows

def denseI32MultiBuildRows (rows : Map Int32 (List BuildRowRef)) (totalRows : ℕ) :
    Result (Option DenseI32MultiBuildRows) :=
  denseI32Rows rows totalRows

def denseI32KeySet (keys : List Int32) (totalRows : ℕ) : Result (Option DenseI32KeySet) := do
  match ← denseI32Slots (keys.map fun key => (key,())) totalRows with
  | none => return none
  | some (min,dense) => return some ⟨min,dense.map Option.isSome⟩

def denseI32PairBuildRows (rows : Map (Int32 × Int32) BuildRowRef) (totalRows : ℕ) :
    Result (Option DenseI32PairBuildRows) :=
  let lefts := (Map.toPairs rows).map fun entry => entry.1.1.toInt
  let rights := (Map.toPairs rows).map fun entry => entry.1.2.toInt
  match lefts.min?,lefts.max?,rights.min?,rights.max? with
  | some minLeft,some maxLeft,some minRight,some maxRight =>
    let leftWidth := (maxLeft - minLeft + 1).toNat
    let rightWidth := (maxRight - minRight + 1).toNat
    let width := leftWidth * rightWidth
    if maxUnsigned 64 < width then .ok none
    else if denseWidthLimit totalRows < width then .ok none
    else
      match (Map.toPairs rows).mapM fun entry =>
          (denseI32PairIndex entry.1.1.toInt entry.1.2.toInt minLeft minRight rightWidth).map
            fun index => (index,entry.2) with
      | none => .ok none
      | some entries => do
        let dense ← fillDense width entries
        let slots ← packDense dense rows.entries.length
        return some ⟨minLeft,minRight,rightWidth,slots⟩
  | _,_,_,_ => .ok none

def denseI64BuildRows (rows : Map Int64 BuildRowRef) (totalRows : ℕ) :
    Result (Option DenseI64BuildRows) :=
  let keys := (Map.toPairs rows).map fun entry => entry.1.toInt
  match keys.min?,keys.max? with
  | some min,some max =>
    match (checkedSigned 64 (max - min)).bind fun distance => checkedSigned 64 (distance + 1) with
    | none => .ok none
    | some width =>
      if denseWidthLimit totalRows < width.toNat then .ok none
      else do
        let dense ← fillDense width.toNat ((Map.toPairs rows).map fun entry =>
          (asUnsigned 64 (entry.1.toInt - min),entry.2))
        let slots ← packDense dense rows.entries.length
        return some ⟨min,slots⟩
  | _,_ => .ok none

/-- `insert_i32_build_ref` and its siblings: the map of unique references becomes a map of
lists at the first key seen twice. -/
def insertBuildRef {κ : Type} [DecidableEq κ] (key : κ) (rowRef : BuildRowRef)
    (uniqueRows : Option (Map κ BuildRowRef)) (rows : Option (Map κ (List BuildRowRef))) :
    Option (Map κ BuildRowRef) × Option (Map κ (List BuildRowRef)) :=
  match rows,uniqueRows with
  | some rows,_ => (uniqueRows,some (Map.pushEntry rows key rowRef))
  | none,none => (none,none)
  | none,some unique =>
    match unique.lookup key with
    | none => (some (unique.insert key rowRef),none)
    | some previous =>
      let multi := Map.singletons (unique.insert key rowRef)
      (none,some (multi.insert key (previous :: (multi.lookup key).getD [])))

def heavyHitterThreshold (totalRows : ℕ) : ℕ := max (totalRows / 10) 1024

/-- `split_heavy_hitters`: the normal and the heavy keys. -/
def splitHeavyHitters (rows : Map OwnedRow (List BuildRowRef)) (totalRows : ℕ) :
    Map OwnedRow (List BuildRowRef) × Map OwnedRow (List BuildRowRef) :=
  rows.entries.foldl (fun acc entry =>
    if heavyHitterThreshold totalRows ≤ entry.2.length then
      (acc.1,acc.2.insert entry.1 entry.2)
    else (acc.1.insert entry.1 entry.2,acc.2)) (∅,∅)

def forEachRow {α σ : Type} (f : σ → BuildRowRef → Row α → Result σ) (state : σ)
    (batches : List (RecordBatch α)) : Result σ :=
  batches.zipIdx.foldlM (fun state batch =>
    batch.1.rows.zipIdx.foldlM (fun state row => f state ⟨batch.2,row.2⟩ row.1) state) state

section Build
variable {α : Type}

def HashJoinBuild.ofBatches (batches : List (RecordBatch α)) (keyDataTypes : List DataType)
    (allRows : List BuildRowRef) : HashJoinBuild α where
  batches := batches
  keyDataTypes := keyDataTypes
  allRows := allRows
  rows := ∅
  heavyRows := ∅
  i32Rows := none
  i32DenseRows := none
  i32UniqueRows := none
  i32DenseUniqueRows := none
  i32KeySet := none
  i32DenseKeySet := none
  i32PairRows := none
  i32PairUniqueRows := none
  i32PairDenseUniqueRows := none
  stringRows := none
  stringUniqueRows := none
  i64Rows := none
  i64UniqueRows := none
  i64DenseUniqueRows := none
  bloom := BloomFilter.new (max (totalRows batches) 1)

/-- What the first pass over dense Int32 keys gathers. -/
structure DenseI32Scan where
  minKey : ℤ
  maxKey : ℤ
  nonNullRows : ℕ
  allRows : List BuildRowRef

def DenseI32Scan.init : DenseI32Scan := ⟨2 ^ 31 - 1,-2 ^ 31,0,[]⟩

def DenseI32Scan.row (collectAllRows : Bool) (scan : DenseI32Scan) (rowRef : BuildRowRef)
    (row : Row α) : Result DenseI32Scan := do
  let _ ← u32TryFrom rowRef.row rowsPerBatchMessage
  let allRows := if collectAllRows then scan.allRows ++ [rowRef] else scan.allRows
  match int32Layout.read row.key with
  | none => return { scan with allRows := allRows }
  | some value =>
    return ⟨min scan.minKey value.toInt,max scan.maxKey value.toInt,scan.nonNullRows + 1,allRows⟩

/-- The first pass gives up on a batch whose key column has another type. -/
def DenseI32Scan.batches (collectAllRows : Bool) (batches : List (RecordBatch α)) :
    Result (Option DenseI32Scan) :=
  batches.zipIdx.foldlM (fun scan batch => match scan with
    | none => .ok none
    | some scan =>
      if batch.1.keyTypes ≠ [.int32] then .ok none
      else some <$> batch.1.rows.zipIdx.foldlM (fun scan row =>
        scan.row collectAllRows ⟨batch.2,row.2⟩ row.1) scan) (some DenseI32Scan.init)

/-- The second pass: the reference lists by offset, and whether a key was seen twice. -/
def denseI32Row (minKey : ℤ) (state : List (Option (List BuildRowRef)) × Bool)
    (rowRef : BuildRowRef) (row : Row α) : Result (List (Option (List BuildRowRef)) × Bool) :=
  match int32Layout.read row.key with
  | none => .ok state
  | some value => do
    let denseIndex := denseI32Index value.toInt minKey
    let _ ← u32TryFrom rowRef.row rowsPerBatchMessage
    match state.1[denseIndex]? with
    | none => .error .panicked
    | some slot =>
      let rowRefs := slot.getD []
      return (state.1.set denseIndex (some (rowRefs ++ [rowRef])),state.2 || !rowRefs.isEmpty)

/-- `try_build_dense_i32_hash_join_input`. -/
def tryBuildDenseI32HashJoinInput (batches : List (RecordBatch α)) (collectAllRows : Bool) :
    Result (Option (HashJoinBuild α)) := do
  match ← DenseI32Scan.batches collectAllRows batches with
  | none => return none
  | some scan =>
    if scan.nonNullRows = 0 then return none
    let width := (scan.maxKey - scan.minKey + 1).toNat
    if denseWidthLimit (totalRows batches) < width then return none
    let (dense,hasDuplicates) ←
      forEachRow (denseI32Row scan.minKey) (List.replicate width none,false) batches
    let build := HashJoinBuild.ofBatches batches [.int32] scan.allRows
    if hasDuplicates then
      let slots ← packDense dense dense.reduceOption.length
      return some { build with i32DenseRows := some ⟨scan.minKey,slots⟩ }
    else
      let slots ← packDense (dense.map fun rowRefs => rowRefs.bind List.getLast?) scan.nonNullRows
      return some { build with i32DenseUniqueRows := some ⟨scan.minKey,slots⟩ }

/-- What the first pass over dense Int32 pairs gathers. -/
structure DenseI32PairScan where
  minLeft : ℤ
  maxLeft : ℤ
  minRight : ℤ
  maxRight : ℤ
  nonNullRows : ℕ
  allRows : List BuildRowRef

def DenseI32PairScan.init : DenseI32PairScan :=
  ⟨2 ^ 31 - 1,-2 ^ 31,2 ^ 31 - 1,-2 ^ 31,0,[]⟩

def DenseI32PairScan.row (collectAllRows : Bool) (scan : DenseI32PairScan) (rowRef : BuildRowRef)
    (row : Row α) : Result DenseI32PairScan := do
  let _ ← u32TryFrom rowRef.row rowsPerBatchMessage
  let allRows := if collectAllRows then scan.allRows ++ [rowRef] else scan.allRows
  match int32PairLayout.read row.key with
  | none => return { scan with allRows := allRows }
  | some value =>
    return ⟨min scan.minLeft value.1.toInt,max scan.maxLeft value.1.toInt,
      min scan.minRight value.2.toInt,max scan.maxRight value.2.toInt,
      scan.nonNullRows + 1,allRows⟩

def DenseI32PairScan.batches (collectAllRows : Bool) (batches : List (RecordBatch α)) :
    Result (Option DenseI32PairScan) :=
  batches.zipIdx.foldlM (fun scan batch => match scan with
    | none => .ok none
    | some scan =>
      if batch.1.keyTypes ≠ [.int32,.int32] then .ok none
      else some <$> batch.1.rows.zipIdx.foldlM (fun scan row =>
        scan.row collectAllRows ⟨batch.2,row.2⟩ row.1) scan) (some DenseI32PairScan.init)

/-- The second pass over pairs gives up (`none`) on a repeated pair. -/
def denseI32PairRow (minLeft minRight : ℤ) (rightWidth : ℕ)
    (state : Option (List (Option BuildRowRef))) (rowRef : BuildRowRef) (row : Row α) :
    Result (Option (List (Option BuildRowRef))) :=
  match state,int32PairLayout.read row.key with
  | none,_ => .ok none
  | some dense,none => .ok (some dense)
  | some dense,some value =>
    match denseI32PairIndex value.1.toInt value.2.toInt minLeft minRight rightWidth with
    | none => .ok none
    | some index =>
      match dense[index]? with
      | none => .error .panicked
      | some (some _) => .ok none
      | some none => do
        let _ ← u32TryFrom rowRef.row rowsPerBatchMessage
        return some (dense.set index (some rowRef))

/-- `try_build_dense_i32_pair_hash_join_input`. -/
def tryBuildDenseI32PairHashJoinInput (batches : List (RecordBatch α)) (collectAllRows : Bool) :
    Result (Option (HashJoinBuild α)) := do
  match ← DenseI32PairScan.batches collectAllRows batches with
  | none => return none
  | some scan =>
    if scan.nonNullRows = 0 then return none
    let leftWidth := (scan.maxLeft - scan.minLeft + 1).toNat
    let rightWidth := (scan.maxRight - scan.minRight + 1).toNat
    let width := leftWidth * rightWidth
    if maxUnsigned 64 < width then return none
    if denseWidthLimit (totalRows batches) < width then return none
    match ← forEachRow (denseI32PairRow scan.minLeft scan.minRight rightWidth)
        (some (List.replicate width none)) batches with
    | none => return none
    | some dense =>
      let slots ← packDense dense scan.nonNullRows
      return some { HashJoinBuild.ofBatches batches [.int32,.int32] scan.allRows with
        i32PairDenseUniqueRows := some ⟨scan.minLeft,scan.minRight,rightWidth,slots⟩ }

/-- The typed reads that `expect` a key column of the first batch's type. -/
def readsTypedKey (mode : HashBuildMode) (keyDataTypes : List DataType) : Bool :=
  (keyDataTypes = [.int32] && mode ≠ .fastSemi) || keyDataTypes = [.int64] ||
    keyDataTypes = [.int32,.int32] || keyDataTypes = [.utf8]

/-- The key columns of a batch must have the types of the first one: a typed read panics on
another type before the check that reports it. -/
def checkBuildKeyTypes (mode : HashBuildMode) (keys : List String) (keyDataTypes : List DataType)
    (batch : RecordBatch α) : Result Unit :=
  if batch.keyTypes = keyDataTypes then .ok ()
  else if readsTypedKey mode keyDataTypes then .error .panicked
  else
    match (keys.zip (batch.keyTypes.zip keyDataTypes)).find? fun key => key.2.1 ≠ key.2.2 with
    | none => .ok ()
    | some (key,actual,expected) => unsupportedSql
        s!"JOIN key types must match across build batches: {key} is {actual.debug}, expected {expected.debug}"

def insertReadKey {κ : Type} [DecidableEq κ] (layout : KeyLayout κ) (rowRef : BuildRowRef)
    (row : Row α) (uniqueRows : Option (Map κ BuildRowRef))
    (rows : Option (Map κ (List BuildRowRef))) :
    Option (Map κ BuildRowRef) × Option (Map κ (List BuildRowRef)) :=
  match layout.read row.key with
  | none => (uniqueRows,rows)
  | some key => insertBuildRef key rowRef uniqueRows rows

def buildsKeySet (mode : HashBuildMode) (keyDataTypes : List DataType) : Bool :=
  mode = .fastSemi && keyDataTypes = [.int32]

/-- Only typed maps are built in the single-key mode, when the key types have one. -/
def buildsTypedOnly (mode : HashBuildMode) (keyDataTypes : List DataType) : Bool :=
  mode = .fastSingleKey && readsTypedKey mode keyDataTypes

/-- Each row into the layouts of the build, as the mode and the key types select them. -/
def buildRow (hashRowWithSalt : RowHash) (mode : HashBuildMode) (collectAllRows : Bool)
    (build : HashJoinBuild α) (rowRef : BuildRowRef) (row : Row α) : Result (HashJoinBuild α) :=
  if buildsKeySet mode build.keyDataTypes then
    match int32Layout.read row.key with
    | none => .ok build
    | some value => .ok { build with i32KeySet := build.i32KeySet.map fun keys => keys.insert value }
  else do
    let _ ← u32TryFrom rowRef.row rowsPerBatchMessage
    let build :=
      if collectAllRows then { build with allRows := build.allRows ++ [rowRef] } else build
    match row.ownedKey with
    | none => return build
    | some key =>
      let i32 := insertReadKey int32Layout rowRef row build.i32UniqueRows build.i32Rows
      let i64 := insertReadKey int64Layout rowRef row build.i64UniqueRows build.i64Rows
      let pair := insertReadKey int32PairLayout rowRef row build.i32PairUniqueRows build.i32PairRows
      let string := insertReadKey utf8Layout rowRef row build.stringUniqueRows build.stringRows
      let build := { build with
        i32UniqueRows := i32.1
        i32Rows := i32.2
        i64UniqueRows := i64.1
        i64Rows := i64.2
        i32PairUniqueRows := pair.1
        i32PairRows := pair.2
        stringUniqueRows := string.1
        stringRows := string.2 }
      if buildsTypedOnly mode build.keyDataTypes then return build
      return { build with
        bloom := build.bloom.insert hashRowWithSalt key
        rows := Map.pushEntry build.rows key rowRef }

def HashJoinBuild.init (mode : HashBuildMode) (batches : List (RecordBatch α))
    (keyDataTypes : List DataType) : HashJoinBuild α :=
  { HashJoinBuild.ofBatches batches keyDataTypes [] with
    i32Rows := if keyDataTypes = [.int32] ∧ mode = .full then some ∅ else none
    i32UniqueRows := if keyDataTypes = [.int32] ∧ mode = .fastSingleKey then some ∅ else none
    i32KeySet := if keyDataTypes = [.int32] ∧ mode = .fastSemi then some [] else none
    i32PairUniqueRows := if keyDataTypes = [.int32,.int32] then some ∅ else none
    stringUniqueRows := if keyDataTypes = [.utf8] then some ∅ else none
    i64Rows := if keyDataTypes = [.int64] ∧ mode ≠ .fastSingleKey then some ∅ else none
    i64UniqueRows := if keyDataTypes = [.int64] ∧ mode = .fastSingleKey then some ∅ else none }

/-- `maps.as_ref().and_then(make)`. -/
def denseOf {μ δ : Type} (make : μ → Result (Option δ)) : Option μ → Result (Option δ)
  | none => .ok none
  | some maps => make maps

/-- The dense layouts made from the finished maps, and the split of the general map. -/
def HashJoinBuild.finish (build : HashJoinBuild α) : Result (HashJoinBuild α) := do
  let rows := totalRows build.batches
  let i32DenseUniqueRows ← denseOf (fun unique => denseI32BuildRows unique rows) build.i32UniqueRows
  let i32DenseRows ← denseOf (fun multi => denseI32MultiBuildRows multi rows) build.i32Rows
  let i32DenseKeySet ← denseOf (fun keys => denseI32KeySet keys rows) build.i32KeySet
  let i32PairDenseUniqueRows ←
    denseOf (fun unique => denseI32PairBuildRows unique rows) build.i32PairUniqueRows
  let i64DenseUniqueRows ← denseOf (fun unique => denseI64BuildRows unique rows) build.i64UniqueRows
  let split := splitHeavyHitters build.rows rows
  return { build with
    i32DenseUniqueRows := i32DenseUniqueRows
    i32DenseRows := i32DenseRows
    i32DenseKeySet := i32DenseKeySet
    i32PairDenseUniqueRows := i32PairDenseUniqueRows
    i64DenseUniqueRows := i64DenseUniqueRows
    rows := split.1
    heavyRows := split.2 }

/-- The loop that fills the maps when no dense attempt succeeded. -/
def buildHashMaps (hashRowWithSalt : RowHash) (batches : List (RecordBatch α)) (keys : List String)
    (mode : HashBuildMode) (collectAllRows : Bool) (keyDataTypes : List DataType) :
    Result (HashJoinBuild α) := do
  let build ← batches.zipIdx.foldlM (fun build batch => do
    checkBuildKeyTypes mode keys keyDataTypes batch.1
    batch.1.rows.zipIdx.foldlM (fun build row =>
      buildRow hashRowWithSalt mode collectAllRows build ⟨batch.2,row.2⟩ row.1) build)
    (HashJoinBuild.init mode batches keyDataTypes)
  build.finish

/-- `build_hash_join_input`. -/
def buildHashJoinInput (hashRowWithSalt : RowHash) (batches : List (RecordBatch α))
    (keys : List String) (mode : HashBuildMode) (collectAllRows : Bool) :
    Result (HashJoinBuild α) :=
  match batches with
  | [] => .error .panicked
  | first :: _ =>
    if keys.isEmpty then unsupportedSql "JOIN requires at least one key column"
    else if mode = .fastSingleKey ∧ first.keyTypes = [.int32] then do
      match ← tryBuildDenseI32HashJoinInput batches collectAllRows with
      | some build => return build
      | none => buildHashMaps hashRowWithSalt batches keys mode collectAllRows first.keyTypes
    else if mode = .fastSingleKey ∧ first.keyTypes = [.int32,.int32] then do
      match ← tryBuildDenseI32PairHashJoinInput batches collectAllRows with
      | some build => return build
      | none => buildHashMaps hashRowWithSalt batches keys mode collectAllRows first.keyTypes
    else buildHashMaps hashRowWithSalt batches keys mode collectAllRows first.keyTypes

end Build
end Dodam.Execution
