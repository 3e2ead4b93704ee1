import Dodam.Execution.Aggregate.Accumulators
import Dodam.Execution.Aggregate.DecimalDateFilter
import Dodam.Execution.Aggregate.Generic
import Dodam.Execution.Aggregate.GroupIndex
import Dodam.Foundation.GroupTable

/-! # Direct COUNT, SUM, MIN and MAX under a decimal and date filter

The states of the direct aggregates over one key or two, and the entries that
consume batches, slices and dictionary pages. The null groups of the integer
indexes are left out, since no entry asks for them.
-/
namespace Dodam.Execution.Aggregate
open Foundation

inductive CountSumMinMaxMaxKind
  | date32
  | decimal128 (precision : ℕ) (scale : ℤ)
deriving DecidableEq

def directCountSumMinMaxValue (maxKind : CountSumMinMaxMaxKind) (decimal date : ℤ) : ℤ :=
  match maxKind with
  | .date32 => date
  | .decimal128 _ _ => decimal

/-- What a row adds to its group. The entries read the decimal of a NULL like any other. -/
structure DirectRow where
  sum : ℤ
  decimal : ℤ
  decimalValid : Bool := true
  date : ℤ
deriving DecidableEq

/-- What the state was made for: its four aggregates and their types. -/
structure CountSumMinMaxShape where
  count : AggregateExpr
  sum : AggregateExpr
  min : AggregateExpr
  max : AggregateExpr
  decimalPrecision : ℕ
  decimalScale : ℤ
  maxKind : CountSumMinMaxMaxKind
deriving DecidableEq

structure KeyedGroup (κ : Type) where
  key : κ
  state : SingleKeyCountSumMinMaxGroup

section Groups
variable {ι κ : Type} (maxKind : CountSumMinMaxMaxKind)

def KeyedGroup.new (key : κ) : KeyedGroup κ := ⟨key,.new none⟩

def KeyedGroup.updateRawNonNull (group : KeyedGroup κ) (row : DirectRow) : KeyedGroup κ :=
  { group with
    state := group.state.updateRawNonNull row.sum row.decimal
      (directCountSumMinMaxValue maxKind row.decimal row.date) }

def KeyedGroup.updateRawMany (group : KeyedGroup κ) (part : SingleKeyCountSumMinMaxBatchPartial) : KeyedGroup κ :=
  { group with state := group.state.updateRawMany part.count part.sum part.minDecimal part.maxValue }

/-- `update_single_key_count_sum_min_max_partial` on a part that is there. -/
def partialUpdate (part : SingleKeyCountSumMinMaxBatchPartial) (row : DirectRow) : SingleKeyCountSumMinMaxBatchPartial :=
  part.update row.sum row.decimal (directCountSumMinMaxValue maxKind row.decimal row.date)

def partialStart (row : DirectRow) : SingleKeyCountSumMinMaxBatchPartial := partialUpdate maxKind .default row

def localStart (row : DirectRow) : SingleKeyCountSumMinMaxBatchPartial :=
  ⟨1,row.sum,row.decimal,directCountSumMinMaxValue maxKind row.decimal row.date⟩

def localUpdate (part : SingleKeyCountSumMinMaxBatchPartial) (row : DirectRow) : SingleKeyCountSumMinMaxBatchPartial :=
  ⟨wrapUnsigned 16 (part.count + 1),saturateSigned 64 (part.sum + row.sum),min part.minDecimal row.decimal,
    max part.maxValue (directCountSumMinMaxValue maxKind row.decimal row.date)⟩

/-- `update_raw_non_null` for every row. -/
def consumeRows (ops : KeyIndex ι κ) (rows : List (κ × DirectRow)) (table : Table ι (KeyedGroup κ)) :
    Table ι (KeyedGroup κ) :=
  rows.foldl (Table.addRow ops .new (KeyedGroup.updateRawNonNull maxKind)) table

def consumePartials (ops : KeyIndex ι κ) (rows : List (κ × DirectRow)) (table : Table ι (KeyedGroup κ)) :
    Table ι (KeyedGroup κ) :=
  let (table,partials) := rows.foldl
    (Table.gatherRow ops .new (partialStart maxKind) (partialUpdate maxKind)) (table,[])
  { table with groups := mergeParts KeyedGroup.updateRawMany table.groups partials }

def GroupAggregateResult.ofGroup (shape : CountSumMinMaxShape) (keys : List GroupValue)
    (state : SingleKeyCountSumMinMaxGroup) : GroupAggregateResult where
  keys
  values :=
    [⟨shape.count,.count state.tally.count⟩,
      ⟨shape.sum,.int64 (if state.tally.sumCount = 0 then none else some state.tally.sum)⟩,
      ⟨shape.min,.decimal128 state.minDecimal shape.decimalPrecision shape.decimalScale⟩,
      ⟨shape.max,match shape.maxKind with
        | .date32 => .date32 state.maxValue
        | .decimal128 precision scale => .decimal128 state.maxValue precision scale⟩]

end Groups

section Indexes

def denseKeyIndex (tuning : Tuning) : KeyIndex DenseI32GroupIndex I32 where
  get index key := index.get key.1
  insert index key id := index.insert tuning key.1 id

def adaptiveKeyIndex (tuning : Tuning) : KeyIndex AdaptiveCopyGroupIndex I64 where
  get index key := index.get key.1
  insert index key id := index.insert tuning key.1 id

/-- `SingleKeyCountSumMinMaxIndex::Utf8`. -/
structure Utf8GroupIndex where
  groups : Map String ℕ
  nullGroup : Option ℕ

def utf8KeyIndex : KeyIndex Utf8GroupIndex (Option String) where
  get index
    | some key => index.groups.lookup key
    | none => index.nullGroup
  insert index key id := match key with
    | some key => { index with groups := index.groups.insert key id }
    | none => { index with nullGroup := some id }

abbrev TwoKeyCountSumMinMaxIndex := Map (Option ℤ × Option ℤ) ℕ

def twoKeyIndex : KeyIndex TwoKeyCountSumMinMaxIndex (Option ℤ × Option ℤ) where
  get index key := index.lookup key
  insert index key id := index.insert key id

abbrev Utf8Table := Table Utf8GroupIndex (KeyedGroup (Option String))
abbrev I32Table := Table DenseI32GroupIndex (KeyedGroup I32)
abbrev I64Table := Table AdaptiveCopyGroupIndex (KeyedGroup I64)
abbrev TwoKeyTable := Table TwoKeyCountSumMinMaxIndex (KeyedGroup (Option ℤ × Option ℤ))

def countSumMinMaxGroupIdForNull (table : Utf8Table) : ℕ × Utf8Table := table.groupId utf8KeyIndex .new none

def countSumMinMaxGroupIdForUtf8 (key : String) (table : Utf8Table) : ℕ × Utf8Table :=
  table.groupId utf8KeyIndex .new (some key)

end Indexes

/-- `SingleKeyCountSumMinMaxVectorState`: the index and the groups, by the type of the key. -/
inductive SingleKeyTable
  | utf8 (table : Utf8Table)
  | int32 (table : I32Table)
  | int64 (table : I64Table)

structure SingleKeyCountSumMinMaxVectorState where
  shape : CountSumMinMaxShape
  table : SingleKeyTable

structure TwoKeyCountSumMinMaxVectorState where
  shape : CountSumMinMaxShape
  table : TwoKeyTable

/-- The decimals of a batch: the i64 values of a reader, or an array with the value below each NULL. -/
inductive Decimal128VectorView
  | rawI64 (values : List I64)
  | rawI64Bytes (values : List I64)
  | arrow (values : List (ℤ × Bool))

/-- A column of a batch. An integer column is given by its values if it is free of NULLs. -/
inductive VectorView
  | i32 (valuesIfNullFree : Option (List I32))
  | i64 (valuesIfNullFree : Option (List I64))
  | date32 (valuesIfNullFree : Option (List I32))
  | decimal128 (view : Decimal128VectorView)

abbrev BatchView := List VectorView

namespace BatchView

def i32Vector (batch : BatchView) (index : ℕ) : Option (Option (List I32)) :=
  match batch[index]? with
  | some (.i32 values) => some values
  | _ => none

def i64Vector (batch : BatchView) (index : ℕ) : Option (Option (List I64)) :=
  match batch[index]? with
  | some (.i64 values) => some values
  | _ => none

def date32Vector (batch : BatchView) (index : ℕ) : Option (Option (List I32)) :=
  match batch[index]? with
  | some (.date32 values) => some values
  | _ => none

def decimal128Vector (batch : BatchView) (index : ℕ) : Option Decimal128VectorView :=
  match batch[index]? with
  | some (.decimal128 view) => some view
  | _ => none

end BatchView

section Entries

/-- `ok_or_else` with an unsupported-SQL error. -/
def orUnsupported {α : Type} (value : Option α) (message : String) : Result α :=
  value.elim (unsupportedSql message) .ok

def ensureSql (condition : Bool) (message : String) : Result Unit :=
  if condition then .ok () else unsupportedSql message

def zipRows {κ : Type} (keys : List κ) (sums : List I64) (decimals : List (ℤ × Bool)) (dates : List I32) :
    List (κ × DirectRow) :=
  keys.zip (List.zipWith (fun (sum : I64) (rest : (ℤ × Bool) × I32) => ⟨sum.1,rest.1.1,rest.1.2,rest.2.1⟩)
    sums (decimals.zip dates))

def rawDecimals (values : List I64) : List (ℤ × Bool) := values.map fun value => (value.1,true)

variable (tuning : Tuning) (simd : Bool)

/-- The distinct keys of a sample, one more than the limit at most. -/
def sampleUnique (maxUnique : ℕ) : List ℤ → List ℤ → List ℤ
  | [], unique => unique
  | key :: keys, unique =>
    if key ∈ unique then sampleUnique maxUnique keys unique
    else if maxUnique < unique.length then unique
    else sampleUnique maxUnique keys (unique ++ [key])

def denseI32BlockAccumulateWorthwhile (keys : List ℤ) : Bool :=
  let sampleLen := min keys.length tuning.denseI32BlockAccumulateSampleRows
  let maxUnique := tuning.denseI32BlockAccumulateMaxSampleUnique
  64 ≤ sampleLen && max 64 1 ≤ keys.length &&
    (sampleUnique maxUnique (keys.take sampleLen) []).length ≤ max maxUnique 1

/-- Blocks of 64 rows with local groups, then the rest row by row. -/
def consumeBlocks (maxKind : CountSumMinMaxMaxKind) (rows : List (I32 × DirectRow)) (table : I32Table) : I32Table :=
  if _h : 64 ≤ rows.length then
    let (table,locals) := (rows.take 64).foldl
      (Table.gatherRow (denseKeyIndex tuning) .new (localStart maxKind) (localUpdate maxKind)) (table,[])
    consumeBlocks maxKind (rows.drop 64)
      { table with groups := mergeParts KeyedGroup.updateRawMany table.groups locals }
  else consumeRows maxKind (denseKeyIndex tuning) rows table
termination_by rows.length
decreasing_by
  rw [List.length_drop]
  omega

def consumeI32I64DecimalDatePredicateAppliedDenseBlock (maxKind : CountSumMinMaxMaxKind)
    (rows : List (I32 × DirectRow)) (table : I32Table) : I32Table :=
  if denseI32BlockAccumulateWorthwhile tuning (rows.map (·.1.1)) then consumeBlocks tuning maxKind rows table
  else consumeRows maxKind (denseKeyIndex tuning) rows table

def matchingI64Rows {κ : Type} (filter : DecimalDateRangeFilter) (rows : List (κ × DirectRow)) :
    List (κ × DirectRow) :=
  filter.matchingRawI64Rows (·.2.decimal) (·.2.date) simd rows

def matchingRows {κ : Type} (filter : DecimalDateRangeFilter) (rows : List (κ × DirectRow)) :
    List (κ × DirectRow) :=
  rows.filter fun row => filter.matchesRow row.2.decimal row.2.date

def consumeI32I64DecimalDateSlices (state : SingleKeyCountSumMinMaxVectorState) (keys : List I32)
    (sums decimals : List I64) (dates : List I32) (filter : DecimalDateRangeFilter) (predicateApplied : Bool) :
    Result SingleKeyCountSumMinMaxVectorState :=
  (ensureSql (keys.length = sums.length ∧ keys.length = decimals.length ∧ keys.length = dates.length)
    "direct primitive aggregate column length mismatch").bind fun _ =>
      match state.table with
      | .int32 table =>
        let rows := zipRows keys sums (rawDecimals decimals) dates
        .ok { state with table := .int32 (
          if predicateApplied then
            consumeI32I64DecimalDatePredicateAppliedDenseBlock tuning state.shape.maxKind rows table
          else consumeRows state.shape.maxKind (denseKeyIndex tuning) (matchingI64Rows simd filter rows) table) }
      | _ => .error .panicked

/-- The rows of a batch that match, by the form of its decimals. -/
def directBatchRows {κ : Type} (filter : DecimalDateRangeFilter) (keys : List κ) (sums : List I64)
    (decimals : Decimal128VectorView) (dates : List I32) : Result (List (κ × DirectRow)) :=
  let ensureLength (length : ℕ) : Result Unit :=
    ensureSql (keys.length = sums.length ∧ keys.length = length ∧ keys.length = dates.length)
      "direct primitive aggregate column length mismatch"
  match decimals with
  | .rawI64 values => (ensureLength values.length).map fun _ =>
      matchingI64Rows simd filter (zipRows keys sums (rawDecimals values) dates)
  | .rawI64Bytes values => (ensureLength values.length).map fun _ =>
      matchingI64Rows false filter (zipRows keys sums (rawDecimals values) dates)
  | .arrow values => (ensureLength values.length).map fun _ =>
      matchingRows filter (zipRows keys sums values dates)

/-- The vectors of a batch, free of NULLs, for keys read by the given reader. -/
def singleKeyBatchVectors {κ : Type} (keyVector : Option (Option (List κ))) (keyType : String) (batch : BatchView) :
    Result (List κ × List I64 × Decimal128VectorView × List I32) :=
  (orUnsupported keyVector ("direct primitive aggregate projected key is not " ++ keyType)).bind fun keys =>
  (orUnsupported (batch.i64Vector 1) "direct primitive aggregate projected sum input is not Int64").bind fun sums =>
  (orUnsupported (batch.decimal128Vector 2)
    "direct primitive aggregate projected min input is not Decimal128").bind fun decimals =>
  (orUnsupported (batch.date32Vector 3)
    "direct primitive aggregate projected max input is not Date32").bind fun dates =>
  (orUnsupported keys "direct primitive aggregate requires non-null key").bind fun keys =>
  (orUnsupported sums "direct primitive aggregate requires non-null sum input").bind fun sums =>
  (orUnsupported dates "direct primitive aggregate requires non-null date input").map fun dates =>
    (keys,sums,decimals,dates)

def consumeI32I64DecimalDateBatch (state : SingleKeyCountSumMinMaxVectorState) (batch : BatchView)
    (filter : DecimalDateRangeFilter) : Result SingleKeyCountSumMinMaxVectorState :=
  (singleKeyBatchVectors (batch.i32Vector 0) "Int32" batch).bind fun (keys,sums,decimals,dates) =>
    match state.table with
    | .int32 table => (directBatchRows simd filter keys sums decimals dates).map fun rows =>
        { state with table := .int32 (consumeRows state.shape.maxKind (denseKeyIndex tuning) rows table) }
    | _ => .error .panicked

def consumeI64I64DecimalDateBatch (state : SingleKeyCountSumMinMaxVectorState) (batch : BatchView)
    (filter : DecimalDateRangeFilter) : Result SingleKeyCountSumMinMaxVectorState :=
  (singleKeyBatchVectors (batch.i64Vector 0) "Int64" batch).bind fun (keys,sums,decimals,dates) =>
    match state.table with
    | .int64 table => (directBatchRows simd filter keys sums decimals dates).map fun rows =>
        { state with table := .int64 (consumeRows state.shape.maxKind (adaptiveKeyIndex tuning) rows table) }
    | _ => .error .panicked

end Entries

section Dictionary

/-- What the loop over a dictionary page changes: the table, the batch partials, the group id of each
entry once it is known, and the ids not read yet. -/
structure DictionaryScan where
  table : Utf8Table
  partials : List (ℕ × SingleKeyCountSumMinMaxBatchPartial)
  groupIds : List (Option ℕ)
  ids : List ℤ

/-- The text of each entry is that of its bytes; none when they are not UTF-8. -/
def countSumMinMaxGroupIdForDictionaryUtf8Cached (dictionary : List (Option String)) (dictionaryKey : ℤ)
    (groupIds : List (Option ℕ)) (table : Utf8Table) : Result (ℕ × List (Option ℕ) × Utf8Table) :=
  if dictionaryKey < 0 then unsupportedSql "negative dictionary id in aggregate group key"
  else
    let dictionaryId := dictionaryKey.toNat
    match groupIds[dictionaryId]?.join with
    | some groupId => .ok (groupId,groupIds,table)
    | none =>
      match dictionary[dictionaryId]? with
      | none => .error .panicked
      | some none => unsupportedSql "dictionary aggregate group key is not valid UTF8"
      | some (some key) =>
        let (groupId,table) := countSumMinMaxGroupIdForUtf8 key table
        if dictionaryId < groupIds.length then .ok (groupId,groupIds.set dictionaryId (some groupId),table)
        else unsupportedSql "dictionary id out of range in aggregate group key"

/-- The group of a row is asked for before the filter is. -/
def dictionaryRow (maxKind : CountSumMinMaxMaxKind) (dictionary : List (Option String))
    (filter : DecimalDateRangeFilter) (scan : DictionaryScan) (entry : ℤ × DirectRow) : Result DictionaryScan :=
  let found : Result (ℕ × DictionaryScan) :=
    if entry.1 = 0 then
      let (groupId,table) := countSumMinMaxGroupIdForNull scan.table
      .ok (groupId,{ scan with table })
    else
      match scan.ids with
      | [] => unsupportedSql "direct dictionary aggregate id length mismatch"
      | dictionaryKey :: ids =>
        (countSumMinMaxGroupIdForDictionaryUtf8Cached dictionary dictionaryKey scan.groupIds scan.table).map
          fun (groupId,groupIds,table) => (groupId,{ scan with table,groupIds,ids })
  found.map fun (groupId,scan) =>
    if filter.matchesRow entry.2.decimal entry.2.date then
      { scan with
        partials := upsert (partialStart maxKind entry.2) (partialUpdate maxKind · entry.2) scan.partials groupId }
    else scan

/-- Without definition levels every row has an id. -/
def consumeDictionaryI64DecimalDateSlices (state : SingleKeyCountSumMinMaxVectorState)
    (groupDefLevels : Option (List ℤ)) (dictionaryIds : List ℤ) (dictionary : List (Option String))
    (sums decimals : List I64) (dates : List I32) (filter : DecimalDateRangeFilter) :
    Result SingleKeyCountSumMinMaxVectorState :=
  (ensureSql (sums.length = decimals.length ∧ sums.length = dates.length)
    "direct dictionary aggregate column length mismatch").bind fun _ =>
      match state.table with
      | .utf8 table =>
        (ensureSql (groupDefLevels.all fun levels => levels.length = sums.length)
          "direct dictionary aggregate def-level length mismatch").bind fun _ =>
            ((zipRows (groupDefLevels.getD (List.replicate sums.length 1)) sums (rawDecimals decimals)
              dates).foldlM (dictionaryRow state.shape.maxKind dictionary filter)
                ⟨table,[],List.replicate dictionary.length none,dictionaryIds⟩).bind fun scan =>
                  (ensureSql (groupDefLevels.isNone || scan.ids.isEmpty)
                    "direct dictionary aggregate unused dictionary ids").map fun _ =>
                      let groups := mergeParts KeyedGroup.updateRawMany scan.table.groups scan.partials
                      { state with table := .utf8 { scan.table with groups } }
      | _ => .error .panicked

end Dictionary

section TwoKey
variable (state : TwoKeyCountSumMinMaxVectorState)

def consumeFirstDateI64DecimalBatch (firstKeys : List ℤ) (batch : BatchView) (filter : DecimalDateRangeFilter) :
    Result TwoKeyCountSumMinMaxVectorState :=
  (orUnsupported (batch.date32Vector 1) "direct primitive two-key aggregate second key is not Date32").bind
    fun secondDates =>
  (orUnsupported (batch.i64Vector 2) "direct primitive two-key aggregate sum input is not Int64").bind fun sums =>
  (orUnsupported (batch.decimal128Vector 3)
    "direct primitive two-key aggregate min/max input is not Decimal128").bind fun decimals =>
  (orUnsupported secondDates "direct primitive two-key aggregate requires non-null Date32 key").bind
    fun secondDates =>
  (orUnsupported sums "direct primitive two-key aggregate requires non-null sum input").bind fun sums =>
  (ensureSql (firstKeys.length = secondDates.length ∧ firstKeys.length = sums.length)
    "direct primitive two-key aggregate column length mismatch").bind fun _ =>
    let keys := List.zipWith (fun first (date : I32) => (some first,some date.1)) firstKeys secondDates
    let consume (rows : List ((Option ℤ × Option ℤ) × DirectRow)) : TwoKeyCountSumMinMaxVectorState :=
      { state with table := consumePartials state.shape.maxKind twoKeyIndex rows state.table }
    match decimals with
    | .rawI64 values =>
      (ensureSql (firstKeys.length = values.length)
        "direct primitive two-key aggregate column length mismatch").map fun _ =>
          consume (matchingI64Rows false filter (zipRows keys sums (rawDecimals values) secondDates))
    | .rawI64Bytes values =>
      (ensureSql (firstKeys.length = values.length)
        "direct primitive two-key aggregate decimal length mismatch").map fun _ =>
          consume (matchingI64Rows false filter (zipRows keys sums (rawDecimals values) secondDates))
    | .arrow values =>
      (ensureSql (firstKeys.length = values.length)
        "direct primitive two-key aggregate decimal length mismatch").map fun _ =>
          consume (matchingRows filter (zipRows keys sums values secondDates))

def consumeI32DateI64DecimalBatch (batch : BatchView) (filter : DecimalDateRangeFilter) :
    Result TwoKeyCountSumMinMaxVectorState :=
  (orUnsupported (batch.i32Vector 0) "direct primitive two-key aggregate first key is not Int32").bind
    fun firstKeys =>
  (orUnsupported firstKeys "direct primitive two-key aggregate requires non-null first key").bind fun firstKeys =>
    consumeFirstDateI64DecimalBatch state (firstKeys.map Subtype.val) batch filter

def consumeI64DateI64DecimalBatch (batch : BatchView) (filter : DecimalDateRangeFilter) :
    Result TwoKeyCountSumMinMaxVectorState :=
  (orUnsupported (batch.i64Vector 0) "direct primitive two-key aggregate first key is not Int64").bind
    fun firstKeys =>
  (orUnsupported firstKeys "direct primitive two-key aggregate requires non-null first key").bind fun firstKeys =>
    consumeFirstDateI64DecimalBatch state (firstKeys.map Subtype.val) batch filter

end TwoKey

section Finish

def finishOrderedCopyKeyGroups {κ : Type} (entries : List (ℤ × ℕ)) (groups : List (KeyedGroup κ)) :
    List (KeyedGroup κ) :=
  (entries.insertionSort fun left right => left.1 ≤ right.1).filterMap fun entry => groups[entry.2]?

def sortGroupResults (groups : List GroupAggregateResult) : List GroupAggregateResult :=
  groups.insertionSort fun left right => compareGroupKeys left.keys right.keys ≠ .gt

def finishSingleKeyCountSumMinMaxGroups (shape : CountSumMinMaxShape) : SingleKeyTable → List GroupAggregateResult
  | .int32 table => (finishOrderedCopyKeyGroups table.index.iter table.groups).map fun group =>
      .ofGroup shape [.int64 (some group.key.1)] group.state
  | .int64 table => (finishOrderedCopyKeyGroups table.index.iter table.groups).map fun group =>
      .ofGroup shape [.int64 (some group.key.1)] group.state
  | .utf8 table => sortGroupResults (table.groups.map fun group =>
      .ofGroup shape [.utf8 group.key] group.state)

def SingleKeyCountSumMinMaxVectorState.finish (state : SingleKeyCountSumMinMaxVectorState) : AggregateMetrics :=
  { groups := finishSingleKeyCountSumMinMaxGroups state.shape state.table }

def TwoKeyCountSumMinMaxVectorState.finish (state : TwoKeyCountSumMinMaxVectorState) : AggregateMetrics :=
  { groups := sortGroupResults (state.table.groups.map fun group =>
      .ofGroup state.shape [.int64 group.key.1,.date32 group.key.2] group.state) }

end Finish

end Dodam.Execution.Aggregate

/-! ## What the groups of a direct aggregate hold

A group counts its rows, adds up their sums and keeps the least decimal and the
greatest value. Rows reach the groups one by one or through parts, and both keep
this, whatever the index of the keys.
-/
namespace Dodam.Execution.Aggregate
open Foundation

section Extremes

def BestOf (better : ℤ → ℤ → Prop) (values : Multiset ℤ) : Option ℤ → Prop
  | none => values = 0
  | some x => x ∈ values ∧ ∀ y ∈ values, better x y

theorem bestOf_singleton {better : ℤ → ℤ → Prop} [Std.Refl better] (v : ℤ) : BestOf better {v} (some v) := by
  refine ⟨Multiset.mem_singleton_self v,fun y hy => ?_⟩
  rw [Multiset.mem_singleton.mp hy]
  exact Std.Refl.refl v

theorem BestOf.add {better : ℤ → ℤ → Prop} [IsTrans ℤ better] {pick : ℤ → ℤ → ℤ}
    (hpick : ∀ x y, (pick x y = x ∧ better x y) ∨ (pick x y = y ∧ better y x)) {s t : Multiset ℤ} {best : Option ℤ}
    {x : ℤ} (hs : BestOf better s best) (ht : BestOf better t (some x)) :
    BestOf better (s + t) (some (best.elim x (pick · x))) := by
  cases best with
  | none =>
    rw [show s = 0 from hs,zero_add]
    exact ht
  | some w =>
    obtain ⟨hw,hws⟩ := hs
    obtain ⟨hx,hxt⟩ := ht
    rw [Option.elim_some]
    rcases hpick w x with ⟨heq,hbetter⟩ | ⟨heq,hbetter⟩
    · rw [heq]
      refine ⟨Multiset.mem_add.mpr (.inl hw),fun y hy => ?_⟩
      rcases Multiset.mem_add.mp hy with hy | hy
      · exact hws y hy
      · exact trans_of better hbetter (hxt y hy)
    · rw [heq]
      refine ⟨Multiset.mem_add.mpr (.inr hx),fun y hy => ?_⟩
      rcases Multiset.mem_add.mp hy with hy | hy
      · exact trans_of better hbetter (hws y hy)
      · exact hxt y hy

end Extremes

section Holds
variable {κ : Type} (maxKind : CountSumMinMaxMaxKind)

def DirectRow.maxInput (row : DirectRow) : ℤ := directCountSumMinMaxValue maxKind row.decimal row.date

/-- The group has counted and summed the rows, and has their extremes, as long as 64 bits can count them. -/
def GroupHolds (rows : Multiset DirectRow) (group : KeyedGroup κ) : Prop :=
  Tally.Counts (rows.map fun row => some row.sum) group.state.tally ∧ (InUnsigned 64 rows.card →
    BestOf (· ≤ ·) (rows.map DirectRow.decimal) group.state.minDecimal ∧
      BestOf (· ≥ ·) (rows.map (DirectRow.maxInput maxKind)) group.state.maxValue)

/-- The part has some rows, as long as `w` bits can count them. -/
def PartHolds (w : ℕ) (rows : Multiset DirectRow) (part : SingleKeyCountSumMinMaxBatchPartial) : Prop :=
  InUnsigned w rows.card → rows ≠ 0 ∧ part.count = rows.card ∧
    AddsUp 64 (rows.map DirectRow.sum) part.sum ∧ BestOf (· ≤ ·) (rows.map DirectRow.decimal) (some part.minDecimal) ∧
      BestOf (· ≥ ·) (rows.map (DirectRow.maxInput maxKind)) (some part.maxValue)

variable {maxKind} {w : ℕ} {rows : Multiset DirectRow}

theorem pick_min (x y : ℤ) : (min x y = x ∧ x ≤ y) ∨ (min x y = y ∧ y ≤ x) := by omega

theorem pick_max (x y : ℤ) : (max x y = x ∧ x ≥ y) ∨ (max x y = y ∧ y ≥ x) := by omega

theorem values_map_some (rows : Multiset DirectRow) :
    Tally.values (rows.map fun row => some row.sum) = rows.map DirectRow.sum := by
  rw [Tally.values,Multiset.filterMap_map]
  exact congrFun (Multiset.filterMap_eq_map _) rows

theorem add_singleton_ne_zero (rows : Multiset DirectRow) (row : DirectRow) : rows + {row} ≠ 0 := by
  rw [add_comm,Multiset.singleton_add]
  exact Multiset.cons_ne_zero

theorem groupHolds_new (key : κ) : GroupHolds maxKind 0 (KeyedGroup.new key) :=
  ⟨Tally.counts_zero,fun _ => ⟨rfl,rfl⟩⟩

theorem GroupHolds.updateRawNonNull {group : KeyedGroup κ} (h : GroupHolds maxKind rows group) (row : DirectRow) :
    GroupHolds maxKind (rows + {row}) (group.updateRawNonNull maxKind row) := by
  refine ⟨?_,fun hcard => ?_⟩
  · rw [Multiset.map_add,Multiset.map_singleton]
    exact h.1.addRow (rounds_wrap (by decide)) (some row.sum)
  · rw [InUnsigned,Multiset.card_add] at hcard
    obtain ⟨hmin,hmax⟩ := h.2 (by unfold InUnsigned; omega)
    rw [Multiset.map_add,Multiset.map_singleton,Multiset.map_add,Multiset.map_singleton]
    exact ⟨hmin.add pick_min (bestOf_singleton _),hmax.add pick_max (bestOf_singleton _)⟩

variable {part : SingleKeyCountSumMinMaxBatchPartial}

theorem GroupHolds.updateRawMany {group : KeyedGroup κ} {more : Multiset DirectRow} (h : GroupHolds maxKind rows group)
    (hpart : PartHolds maxKind w more part) (hmore : InUnsigned 64 more.card → InUnsigned w more.card) :
    GroupHolds maxKind (rows + more) (group.updateRawMany part) := by
  have hheld (hcard : InUnsigned 64 (rows + more).card) := by
    rw [InUnsigned,Multiset.card_add] at hcard
    exact hpart (hmore (by unfold InUnsigned; omega))
  refine ⟨fun hcard => ?_,fun hcard => ?_⟩
  · rw [Multiset.card_map] at hcard
    obtain ⟨-,hcount,hsum,-⟩ := hheld hcard
    have hcounts : Tally.Counts (more.map fun row => some row.sum) ⟨part.count,part.sum,part.count⟩ := by
      intro _
      rw [values_map_some,Multiset.card_map,Multiset.card_map]
      exact ⟨hcount,hcount,hsum⟩
    have hmany := h.1.addMany hcounts
    rw [← Multiset.map_add] at hmany
    exact hmany (by rw [Multiset.card_map]; exact hcard)
  · obtain ⟨-,-,-,hmin,hmax⟩ := hheld hcard
    rw [InUnsigned,Multiset.card_add] at hcard
    obtain ⟨hgroupMin,hgroupMax⟩ := h.2 (by unfold InUnsigned; omega)
    rw [Multiset.map_add,Multiset.map_add]
    exact ⟨hgroupMin.add pick_min hmin,hgroupMax.add pick_max hmax⟩

theorem partHolds_localStart (row : DirectRow) : PartHolds maxKind 16 {row} (localStart maxKind row) := by
  intro _
  refine ⟨Multiset.singleton_ne_zero row,rfl,?_,?_,?_⟩
  · rw [Multiset.map_singleton]
    exact .value row.sum
  · rw [Multiset.map_singleton]
    exact bestOf_singleton _
  · rw [Multiset.map_singleton]
    exact bestOf_singleton _

theorem PartHolds.localUpdate (h : PartHolds maxKind 16 rows part)
    (row : DirectRow) : PartHolds maxKind 16 (rows + {row}) (localUpdate maxKind part row) := by
  intro hcard
  rw [InUnsigned,Multiset.card_add,Multiset.card_singleton] at hcard
  obtain ⟨-,hcount,hsum,hmin,hmax⟩ := h (by unfold InUnsigned; omega)
  refine ⟨add_singleton_ne_zero rows row,?_,?_,?_,?_⟩
  · rw [Multiset.card_add,Multiset.card_singleton,← hcount]
    exact rounds_wrapUnsigned 16 _ (by unfold InUnsigned; omega)
  · rw [Multiset.map_add,Multiset.map_singleton]
    exact .add (rounds_saturate 64) hsum (.value row.sum)
  · rw [Multiset.map_add,Multiset.map_singleton]
    exact hmin.add pick_min (bestOf_singleton _)
  · rw [Multiset.map_add,Multiset.map_singleton]
    exact hmax.add pick_max (bestOf_singleton _)

theorem partHolds_partialStart (row : DirectRow) : PartHolds maxKind 64 {row} (partialStart maxKind row) := by
  intro _
  refine ⟨Multiset.singleton_ne_zero row,rfl,?_,?_,?_⟩
  · have hadd : AddsUp 64 (0 + {row.sum}) (wrapSigned 64 (0 + row.sum)) :=
      .add (rounds_wrap (by decide)) .zero (.value row.sum)
    rw [Multiset.map_singleton,← zero_add ({row.sum} : Multiset ℤ)]
    exact hadd
  · rw [Multiset.map_singleton]
    exact bestOf_singleton _
  · rw [Multiset.map_singleton]
    exact bestOf_singleton _

theorem PartHolds.partialUpdate (h : PartHolds maxKind 64 rows part)
    (row : DirectRow) : PartHolds maxKind 64 (rows + {row}) (partialUpdate maxKind part row) := by
  intro hcard
  rw [InUnsigned,Multiset.card_add,Multiset.card_singleton] at hcard
  obtain ⟨hne,hcount,hsum,hmin,hmax⟩ := h (by unfold InUnsigned; omega)
  have hpos : part.count ≠ 0 := by
    rw [hcount]
    exact fun hzero => hne (Multiset.card_eq_zero.mp hzero)
  have hmore : Aggregate.partialUpdate maxKind part row = ⟨wrapUnsigned 64 (part.count + 1),
      wrapSigned 64 (part.sum + row.sum),min part.minDecimal row.decimal,max part.maxValue (row.maxInput maxKind)⟩ := by
    rw [Aggregate.partialUpdate,SingleKeyCountSumMinMaxBatchPartial.update,if_neg hpos,if_neg hpos]
    rfl
  rw [hmore]
  refine ⟨add_singleton_ne_zero rows row,?_,?_,?_,?_⟩
  · rw [Multiset.card_add,Multiset.card_singleton,← hcount]
    exact rounds_wrapUnsigned 64 _ (by unfold InUnsigned; omega)
  · rw [Multiset.map_add,Multiset.map_singleton]
    exact .add (rounds_wrap (by decide)) hsum (.value row.sum)
  · rw [Multiset.map_add,Multiset.map_singleton]
    exact hmin.add pick_min (bestOf_singleton _)
  · rw [Multiset.map_add,Multiset.map_singleton]
    exact hmax.add pick_max (bestOf_singleton _)

end Holds

section Indexes

def denseWF (index : DenseI32GroupIndex) : Prop := index.WF

def adaptiveWF (index : AdaptiveCopyGroupIndex) : Prop :=
  index.WF ∧ ∀ key id, index.get key = some id → InSigned 64 key

theorem lawful_denseKeyIndex (tuning : Tuning) : (denseKeyIndex tuning).Lawful denseWF where
  insert_spec {index key} id hwf hnone := by
    obtain ⟨hwf',hget⟩ := @DenseI32GroupIndex.insert_spec key.1 index tuning hwf key.2 id hnone
    refine ⟨hwf',fun k => (hget k.1 k.2).trans ?_⟩
    exact if_congr Subtype.ext_iff.symm rfl rfl

theorem lawful_adaptiveKeyIndex (tuning : Tuning) : (adaptiveKeyIndex tuning).Lawful adaptiveWF where
  insert_spec {index key} id hwf hnone := by
    obtain ⟨hwf',hget⟩ := @AdaptiveCopyGroupIndex.insert_spec key.1 index tuning hwf.1 id hnone
    refine ⟨⟨hwf',fun k i hk => ?_⟩,fun k => (hget k.1).trans (if_congr Subtype.ext_iff.symm rfl rfl)⟩
    change (index.insert tuning key.1 id).get k = some i at hk
    rw [hget] at hk
    split_ifs at hk with heq
    · exact heq ▸ key.2
    · exact hwf.2 k i hk

theorem lawful_utf8KeyIndex : utf8KeyIndex.Lawful fun _ => True where
  insert_spec {index key} id _ _ := by
    refine ⟨trivial,fun k => ?_⟩
    cases key with
    | none =>
      cases k with
      | none => rfl
      | some k => exact (if_neg (Option.some_ne_none k)).symm
    | some key =>
      cases k with
      | none => exact (if_neg (Option.some_ne_none key).symm).symm
      | some k =>
        by_cases heq : k = key
        · subst heq
          exact (AList.lookup_insert index.groups).trans (if_pos rfl).symm
        · exact (AList.lookup_insert_ne heq).trans (if_neg fun h => heq (Option.some.inj h)).symm

theorem lawful_twoKeyIndex : twoKeyIndex.Lawful fun _ => True where
  insert_spec {index key} id _ _ := by
    refine ⟨trivial,fun k => ?_⟩
    by_cases heq : k = key
    · subst heq
      exact (AList.lookup_insert index).trans (if_pos rfl).symm
    · exact (AList.lookup_insert_ne heq).trans (if_neg heq).symm

end Indexes

section Consume
variable {ι κ : Type} [DecidableEq κ] {ops : KeyIndex ι κ} {WF : ι → Prop} {maxKind : CountSumMinMaxMaxKind}
  {registered : κ → Prop} {rows : Multiset (κ × DirectRow)} {table : Table ι (KeyedGroup κ)}

abbrev TableHolds (ops : KeyIndex ι κ) (WF : ι → Prop) (maxKind : CountSumMinMaxMaxKind) (registered : κ → Prop)
    (rows : Multiset (κ × DirectRow)) (table : Table ι (KeyedGroup κ)) : Prop :=
  Table.Holds ops WF KeyedGroup.key (GroupHolds maxKind) registered rows table

theorem TableHolds.consumeRows (h : TableHolds ops WF maxKind registered rows table) (hops : ops.Lawful WF)
    (l : List (κ × DirectRow)) : TableHolds ops WF maxKind (fun k => registered k ∨ ∃ r ∈ l, r.1 = k) (rows + l)
      (consumeRows maxKind ops l table) :=
  Table.Holds.addRows h hops (KeyedGroup.updateRawNonNull maxKind) (fun _ => rfl) groupHolds_new
    (fun _ _ => rfl) (fun _ _ v hheld => hheld.updateRawNonNull v) l

theorem TableHolds.consumePartials (h : TableHolds ops WF maxKind registered rows table) (hops : ops.Lawful WF)
    (l : List (κ × DirectRow)) : TableHolds ops WF maxKind (fun k => registered k ∨ ∃ r ∈ l, r.1 = k) (rows + l)
      (consumePartials maxKind ops l table) := by
  have hgathered := (Table.gathered_start (PartHolds maxKind 64) h).gatherRows hops (fun _ => rfl)
    groupHolds_new partHolds_partialStart (fun _ _ v hheld => hheld.partialUpdate v) l
  have hmerged := hgathered.merge KeyedGroup.updateRawMany (fun _ _ => rfl)
    fun _ _ _ _ _ hheld hpart => hheld.updateRawMany hpart id
  rw [zero_add] at hmerged
  exact hmerged

end Consume

section Blocks
variable {maxKind : CountSumMinMaxMaxKind} {registered : I32 → Prop} {rows : Multiset (I32 × DirectRow)}
  {table : I32Table}

theorem TableHolds.consumeBlocks (tuning : Tuning)
    (h : TableHolds (denseKeyIndex tuning) denseWF maxKind registered rows table) (l : List (I32 × DirectRow)) :
    TableHolds (denseKeyIndex tuning) denseWF maxKind (fun k => registered k ∨ ∃ r ∈ l, r.1 = k) (rows + l)
      (consumeBlocks tuning maxKind l table) := by
  have hops := lawful_denseKeyIndex tuning
  fun_induction Aggregate.consumeBlocks tuning maxKind l table generalizing registered rows with
  | case1 l table hlength scanned locals hscan ih =>
    have hgathered := (Table.gathered_start (PartHolds maxKind 16) h).gatherRows hops (fun _ => rfl)
      groupHolds_new partHolds_localStart (fun _ _ v hheld => hheld.localUpdate v) (l.take 64)
    rw [hscan] at hgathered
    have hmerged := hgathered.merge KeyedGroup.updateRawMany (fun _ _ => rfl)
      fun _ more _ _ hmore hheld hpart => hheld.updateRawMany hpart fun _ => by
        rw [zero_add,Multiset.coe_card,List.length_take] at hmore
        unfold InUnsigned
        omega
    have hrest := ih hmerged
    rw [zero_add,add_assoc,Multiset.coe_add,List.take_append_drop] at hrest
    refine hrest.congr fun k => ?_
    have happend : ((∃ r ∈ l.take 64, r.1 = k) ∨ ∃ r ∈ l.drop 64, r.1 = k) ↔ ∃ r ∈ l, r.1 = k := by
      conv_rhs => rw [← List.take_append_drop 64 l]
      simp only [List.mem_append,or_and_right,exists_or]
    rw [or_assoc,happend]
  | case2 l table hlength => exact h.consumeRows hops l

end Blocks

end Dodam.Execution.Aggregate
