import Dodam.Execution.Aggregate.QualifyingRows

/-! # Runs of the direct aggregates

Every entry of the states is read as rows with keys. A run registers the keys of the rows it
visits, and all keys of a dictionary page.
-/
namespace Dodam.Execution.Aggregate
open Foundation

section Names

def i32Name (key : I32) : List GroupValue := [.int64 (some key.1)]
def i64Name (key : I64) : List GroupValue := [.int64 (some key.1)]
def utf8Name (key : Option String) : List GroupValue := [.utf8 key]
def twoKeyName (key : Option ℤ × Option ℤ) : List GroupValue := [.int64 key.1,.date32 key.2]

theorem i32Name_injective : Function.Injective i32Name := fun _ _ h => by
  injection h with h
  injection h with h
  exact Subtype.ext (Option.some.inj h)

theorem i64Name_injective : Function.Injective i64Name := fun _ _ h => by
  injection h with h
  injection h with h
  exact Subtype.ext (Option.some.inj h)

theorem utf8Name_injective : Function.Injective utf8Name := fun _ _ h => by
  injection h with h
  injection h

theorem twoKeyName_injective : Function.Injective twoKeyName := fun _ _ h => by
  injection h with hfirst h
  injection hfirst with hfirst
  injection h with hsecond
  injection hsecond with hsecond
  exact Prod.ext hfirst hsecond

end Names

section Calls

inductive SingleKeyCall
  | dictionary (groupDefLevels : Option (List ℤ)) (dictionaryIds : List ℤ) (entries : List (Option String))
      (sums decimals : List I64) (dates : List I32)
  | i32Slices (keys : List I32) (sums decimals : List I64) (dates : List I32) (predicateApplied : Bool)
  | i32Batch (batch : BatchView)
  | i64Batch (batch : BatchView)

inductive TwoKeyCall
  | i32Batch (batch : BatchView)
  | i64Batch (batch : BatchView)

def Decimal128VectorView.values : Decimal128VectorView → List (ℤ × Bool)
  | rawI64 values => rawDecimals values
  | rawI64Bytes values => rawDecimals values
  | arrow values => values

/-- The rows of a batch whose sums, decimals and dates start at a position. -/
def batchRows {κ : Type} (keys : List κ) (batch : BatchView) (sum decimal date : ℕ) : List (κ × DirectRow) :=
  zipRows keys ((batch.i64Vector sum).join.getD []) ((batch.decimal128Vector decimal).elim [] (·.values))
    ((batch.date32Vector date).join.getD [])

def SingleKeyCall.rows : SingleKeyCall → List (List GroupValue × DirectRow)
  | dictionary groupDefLevels dictionaryIds entries sums decimals dates =>
    (zipRows (dictionaryKeys entries (groupDefLevels.getD (List.replicate sums.length 1)) dictionaryIds) sums
      (rawDecimals decimals) dates).map (nameRow utf8Name)
  | i32Slices keys sums decimals dates _ => (zipRows keys sums (rawDecimals decimals) dates).map (nameRow i32Name)
  | i32Batch batch => (batchRows ((batch.i32Vector 0).join.getD []) batch 1 2 3).map (nameRow i32Name)
  | i64Batch batch => (batchRows ((batch.i64Vector 0).join.getD []) batch 1 2 3).map (nameRow i64Name)

def twoKeyRows (firstKeys : List ℤ) (batch : BatchView) : List ((Option ℤ × Option ℤ) × DirectRow) :=
  batchRows (List.zipWith (fun first (date : I32) => (some first,some date.1)) firstKeys
    ((batch.date32Vector 1).join.getD [])) batch 2 3 1

def TwoKeyCall.rows : TwoKeyCall → List (List GroupValue × DirectRow)
  | i32Batch batch => (twoKeyRows (((batch.i32Vector 0).join.getD []).map Subtype.val) batch).map (nameRow twoKeyName)
  | i64Batch batch => (twoKeyRows (((batch.i64Vector 0).join.getD []).map Subtype.val) batch).map (nameRow twoKeyName)

/-- The keys that get a group whatever the filter says: those of a dictionary page. -/
def SingleKeyCall.Registers : SingleKeyCall → List GroupValue → Prop
  | call@(dictionary _ _ _ _ _ _), key => ∃ row ∈ call.rows, row.1 = key
  | _, _ => False

def SingleKeyCall.visited (filter : DecimalDateRangeFilter) : SingleKeyCall → List (List GroupValue × DirectRow)
  | call@(i32Slices _ _ _ _ true) => call.rows
  | call => matchingRows filter call.rows

variable (tuning : Tuning) (simd : Bool) (filter : DecimalDateRangeFilter)

def SingleKeyCall.consume (state : SingleKeyCountSumMinMaxVectorState) :
    SingleKeyCall → Result SingleKeyCountSumMinMaxVectorState
  | dictionary groupDefLevels dictionaryIds entries sums decimals dates =>
    consumeDictionaryI64DecimalDateSlices state groupDefLevels dictionaryIds entries sums decimals dates filter
  | i32Slices keys sums decimals dates predicateApplied =>
    consumeI32I64DecimalDateSlices tuning simd state keys sums decimals dates filter predicateApplied
  | i32Batch batch => consumeI32I64DecimalDateBatch tuning simd state batch filter
  | i64Batch batch => consumeI64I64DecimalDateBatch tuning simd state batch filter

def TwoKeyCall.consume (state : TwoKeyCountSumMinMaxVectorState) : TwoKeyCall → Result TwoKeyCountSumMinMaxVectorState
  | i32Batch batch => consumeI32DateI64DecimalBatch state batch filter
  | i64Batch batch => consumeI64DateI64DecimalBatch state batch filter

end Calls

open SingleKeyCall

section Entries
variable {filter : DecimalDateRangeFilter}
variable {κ : Type} {keys : List κ} {sums : List I64} {dates : List I32} {decimals : Decimal128VectorView}

theorem matchingRows_nameRow (name : κ → List GroupValue) (l : List (κ × DirectRow)) :
    matchingRows filter (l.map (nameRow name)) = (matchingRows filter l).map (nameRow name) :=
  List.filter_map

theorem orUnsupported_eq_ok {α : Type} {value : Option α} {message : String} {a : α} :
    orUnsupported value message = .ok a ↔ value = some a := by
  cases value with
  | none => exact ⟨nofun,nofun⟩
  | some b => exact ⟨fun h => congrArg some (Except.ok.inj h),fun h => congrArg Except.ok (Option.some.inj h)⟩

theorem ensureSql_eq_ok {condition : Bool} {message : String} :
    ensureSql condition message = .ok () ↔ condition = true := by
  cases condition with
  | false => exact ⟨nofun,nofun⟩
  | true => exact ⟨fun _ => rfl,fun _ => rfl⟩

theorem decimal_inSigned {decimals : List I64} :
    ∀ row ∈ zipRows keys sums (rawDecimals decimals) dates, InSigned 64 row.2.decimal := by
  intro row hrow
  have hvalue := (List.of_mem_zip (a := row.1) (b := row.2) hrow).2
  obtain ⟨i,hi,hget⟩ := List.getElem_of_mem hvalue
  rw [List.getElem_zipWith,List.getElem_zip] at hget
  rw [← hget]
  simp only [rawDecimals,List.getElem_map]
  exact Subtype.property _

theorem matchingI64Rows_eq (simd : Bool) {decimals : List I64} :
    matchingI64Rows simd filter (zipRows keys sums (rawDecimals decimals) dates) =
      matchingRows filter (zipRows keys sums (rawDecimals decimals) dates) :=
  DecimalDateRangeFilter.matchingRawI64Rows_eq simd _ decimal_inSigned

theorem directBatchRows_eq_ok {simd : Bool} {rows : List (κ × DirectRow)}
    (h : directBatchRows simd filter keys sums decimals dates = .ok rows) :
    rows = matchingRows filter (zipRows keys sums decimals.values dates) := by
  cases decimals with
  | rawI64 values =>
    obtain ⟨-,-,rfl⟩ := map_eq_ok_iff.mp h
    exact matchingI64Rows_eq simd
  | rawI64Bytes values =>
    obtain ⟨-,-,rfl⟩ := map_eq_ok_iff.mp h
    exact matchingI64Rows_eq false
  | arrow values =>
    obtain ⟨-,-,rfl⟩ := map_eq_ok_iff.mp h
    rfl

theorem singleKeyBatchVectors_eq_ok {keyVector : Option (Option (List κ))} {keyType : String}
    {batch : BatchView}
    (h : singleKeyBatchVectors keyVector keyType batch = .ok (keys,sums,decimals,dates)) :
    keyVector = some (some keys) ∧
      batchRows keys batch 1 2 3 = zipRows keys sums decimals.values dates := by
  obtain ⟨keyValues,hkeys,h⟩ := bind_eq_ok_iff.mp h
  obtain ⟨sumValues,hsums,h⟩ := bind_eq_ok_iff.mp h
  obtain ⟨view,hview,h⟩ := bind_eq_ok_iff.mp h
  obtain ⟨dateValues,hdates,h⟩ := bind_eq_ok_iff.mp h
  obtain ⟨keys',hkeys',h⟩ := bind_eq_ok_iff.mp h
  obtain ⟨sums',hsums',h⟩ := bind_eq_ok_iff.mp h
  obtain ⟨dates',hdates',h⟩ := map_eq_ok_iff.mp h
  cases h
  rw [orUnsupported_eq_ok] at hkeys hsums hview hdates hkeys' hsums' hdates'
  subst hkeys' hsums' hdates'
  refine ⟨hkeys,?_⟩
  rw [batchRows,hsums,hview,hdates]
  rfl

end Entries

section Steps
variable {tuning : Tuning} {simd : Bool} {filter : DecimalDateRangeFilter}

def SingleKeyTable.Holds (tuning : Tuning) (maxKind : CountSumMinMaxMaxKind) (registered : List GroupValue → Prop)
    (rows : Multiset (List GroupValue × DirectRow)) : SingleKeyTable → Prop
  | utf8 table => NamedHolds utf8KeyIndex (fun _ => True) utf8Name maxKind registered rows table
  | int32 table => NamedHolds (denseKeyIndex tuning) denseWF i32Name maxKind registered rows table
  | int64 table => NamedHolds (adaptiveKeyIndex tuning) adaptiveWF i64Name maxKind registered rows table

theorem length_dictionaryKeys (dictionary : List (Option String)) (levels ids : List ℤ) :
    (dictionaryKeys dictionary levels ids).length = levels.length := by
  induction levels generalizing ids with
  | nil => rfl
  | cons level levels ih =>
    rw [dictionaryKeys]
    split_ifs <;> rw [List.length_cons,List.length_cons,ih]

variable {state state' : SingleKeyCountSumMinMaxVectorState} {registered : List GroupValue → Prop}
  {rows : Multiset (List GroupValue × DirectRow)}

variable {sums decimals : List I64} {maxKind : CountSumMinMaxMaxKind} {registered' : List GroupValue → Prop}

theorem dictionary_step {groupDefLevels : Option (List ℤ)} {dictionaryIds : List ℤ} {entries : List (Option String)} {dates : List I32}
    (h : state.table.Holds tuning state.shape.maxKind registered rows)
    (hcall : consumeDictionaryI64DecimalDateSlices state groupDefLevels dictionaryIds entries sums decimals dates
      filter = .ok state') :
    state'.shape = state.shape ∧ state'.table.Holds tuning state.shape.maxKind
      (fun k => registered k ∨ ∃ r ∈ (dictionary groupDefLevels dictionaryIds entries sums decimals
        dates).rows, r.1 = k)
      (rows + ((dictionary groupDefLevels dictionaryIds entries sums decimals dates).visited filter :
        List _)) := by
  obtain ⟨_,hlengths,hcall⟩ := bind_eq_ok_iff.mp hcall
  rw [ensureSql_eq_ok,decide_eq_true_iff] at hlengths
  obtain ⟨shape,table⟩ := state
  cases table with
  | int32 table => cases hcall
  | int64 table => cases hcall
  | utf8 table =>
    obtain ⟨_,hlevels,hcall⟩ := bind_eq_ok_iff.mp hcall
    obtain ⟨scan,hscan,hcall⟩ := bind_eq_ok_iff.mp hcall
    obtain ⟨-,-,rfl⟩ := map_eq_ok_iff.mp hcall
    refine ⟨rfl,?_⟩
    rw [ensureSql_eq_ok] at hlevels
    set levels := groupDefLevels.getD (List.replicate sums.length 1) with hdef
    have hlength : levels.length = sums.length := by
      rw [hdef]
      cases groupDefLevels with
      | none => exact List.length_replicate
      | some levels => exact of_decide_eq_true hlevels
    set values := List.zipWith (fun (sum : I64) (rest : (ℤ × Bool) × I32) =>
      (⟨sum.1,rest.1.1,rest.1.2,rest.2.1⟩ : DirectRow)) sums ((rawDecimals decimals).zip dates) with hvalues
    have hvaluesLength : values.length = levels.length := by
      rw [hvalues,List.length_zipWith,List.length_zip,rawDecimals,List.length_map]
      omega
    have hfst : (zipRows levels sums (rawDecimals decimals) dates).map Prod.fst = levels :=
      List.map_fst_zip hvaluesLength.ge
    have hsnd : (zipRows levels sums (rawDecimals decimals) dates).map Prod.snd = values :=
      List.map_snd_zip hvaluesLength.le
    have hvisited : (dictionary groupDefLevels dictionaryIds entries sums decimals dates).visited filter =
        (matchingRows filter ((dictionaryKeys entries levels dictionaryIds).zip values)).map (nameRow utf8Name) :=
      matchingRows_nameRow utf8Name _
    rw [hvisited]
    refine NamedHolds.step (m := fun k => k ∈ dictionaryKeys entries levels dictionaryIds) h
      (fun keys held htable => ?_) fun k => ?_
    · have hgathered := dictionaryRows_eq_ok (cached_start table entries.length)
        (Table.gathered_start (PartHolds shape.maxKind 64) htable) hscan
      have hmerged := hgathered.merge KeyedGroup.updateRawMany (fun _ _ => rfl)
        fun _ _ _ _ _ hheld hpart => hheld.updateRawMany hpart id
      rw [hfst,hsnd,zero_add] at hmerged
      exact hmerged
    · refine (mem_map_nameRow k).trans (exists_congr fun key => and_congr_left fun _ => ?_)
      have hkeys : ((dictionaryKeys entries levels dictionaryIds).zip values).map Prod.fst =
          dictionaryKeys entries levels dictionaryIds :=
        List.map_fst_zip (by rw [length_dictionaryKeys,hvaluesLength])
      have hmem : key ∈ dictionaryKeys entries levels dictionaryIds ↔
          ∃ row ∈ (dictionaryKeys entries levels dictionaryIds).zip values, row.1 = key := by
        conv_lhs => rw [← hkeys]
        exact List.mem_map
      exact hmem.symm

theorem i32Slices_step {keys : List I32} {dates : List I32} {predicateApplied : Bool}
    (h : state.table.Holds tuning state.shape.maxKind registered rows)
    (hcall : consumeI32I64DecimalDateSlices tuning simd state keys sums decimals dates filter predicateApplied =
      .ok state') : state'.shape = state.shape ∧ state'.table.Holds tuning state.shape.maxKind
      (fun k => registered k ∨ ∃ r ∈ (i32Slices keys sums decimals dates predicateApplied).visited filter,
        r.1 = k)
      (rows + ((i32Slices keys sums decimals dates predicateApplied).visited filter : List _)) := by
  obtain ⟨-,-,hcall⟩ := bind_eq_ok_iff.mp hcall
  obtain ⟨shape,table⟩ := state
  cases table with
  | utf8 table => cases hcall
  | int64 table => cases hcall
  | int32 table =>
    cases hcall
    refine ⟨rfl,?_⟩
    have hops := lawful_denseKeyIndex tuning
    cases predicateApplied with
    | true =>
      refine NamedHolds.step h (fun keys held htable => ?_) mem_map_nameRow
      change TableHolds _ _ _ _ _ (consumeI32I64DecimalDatePredicateAppliedDenseBlock tuning shape.maxKind _ table)
      unfold consumeI32I64DecimalDatePredicateAppliedDenseBlock
      split_ifs
      · exact htable.consumeBlocks tuning _
      · exact htable.consumeRows hops _
    | false =>
      have hvisited : (i32Slices keys sums decimals dates false).visited filter =
          (matchingI64Rows simd filter (zipRows keys sums (rawDecimals decimals) dates)).map (nameRow i32Name) := by
        rw [matchingI64Rows_eq]
        exact matchingRows_nameRow i32Name _
      rw [hvisited]
      exact NamedHolds.step h (fun keys held htable => htable.consumeRows hops _) mem_map_nameRow

theorem i32Batch_step {batch : BatchView} (h : state.table.Holds tuning state.shape.maxKind registered rows)
    (hcall : consumeI32I64DecimalDateBatch tuning simd state batch filter = .ok state') :
    state'.shape = state.shape ∧ state'.table.Holds tuning state.shape.maxKind
      (fun k => registered k ∨ ∃ r ∈ (i32Batch batch).visited filter, r.1 = k)
      (rows + ((i32Batch batch).visited filter : List _)) := by
  obtain ⟨⟨keys,sums,decimals,dates⟩,hvectors,hcall⟩ := bind_eq_ok_iff.mp hcall
  obtain ⟨hkeys,hrows⟩ := singleKeyBatchVectors_eq_ok hvectors
  obtain ⟨shape,table⟩ := state
  cases table with
  | utf8 table => cases hcall
  | int64 table => cases hcall
  | int32 table =>
    obtain ⟨matched,hmatched,rfl⟩ := map_eq_ok_iff.mp hcall
    refine ⟨rfl,?_⟩
    have hvisited : (i32Batch batch).visited filter = matched.map (nameRow i32Name) := by
      rw [directBatchRows_eq_ok hmatched,← hrows,← matchingRows_nameRow]
      change matchingRows filter ((batchRows ((batch.i32Vector 0).join.getD []) batch 1 2 3).map _) = _
      rw [hkeys]
      rfl
    rw [hvisited]
    exact NamedHolds.step h (fun keys held htable => htable.consumeRows (lawful_denseKeyIndex tuning) _)
      mem_map_nameRow

theorem i64Batch_step {batch : BatchView} (h : state.table.Holds tuning state.shape.maxKind registered rows)
    (hcall : consumeI64I64DecimalDateBatch tuning simd state batch filter = .ok state') :
    state'.shape = state.shape ∧ state'.table.Holds tuning state.shape.maxKind
      (fun k => registered k ∨ ∃ r ∈ (i64Batch batch).visited filter, r.1 = k)
      (rows + ((i64Batch batch).visited filter : List _)) := by
  obtain ⟨⟨keys,sums,decimals,dates⟩,hvectors,hcall⟩ := bind_eq_ok_iff.mp hcall
  obtain ⟨hkeys,hrows⟩ := singleKeyBatchVectors_eq_ok hvectors
  obtain ⟨shape,table⟩ := state
  cases table with
  | utf8 table => cases hcall
  | int32 table => cases hcall
  | int64 table =>
    obtain ⟨matched,hmatched,rfl⟩ := map_eq_ok_iff.mp hcall
    refine ⟨rfl,?_⟩
    have hvisited : (i64Batch batch).visited filter = matched.map (nameRow i64Name) := by
      rw [directBatchRows_eq_ok hmatched,← hrows,← matchingRows_nameRow]
      change matchingRows filter ((batchRows ((batch.i64Vector 0).join.getD []) batch 1 2 3).map _) = _
      rw [hkeys]
      rfl
    rw [hvisited]
    exact NamedHolds.step h (fun keys held htable => htable.consumeRows (lawful_adaptiveKeyIndex tuning) _)
      mem_map_nameRow

/-- The keys that have a group after a call and may not have had one before. -/
def SingleKeyCall.NewKey (filter : DecimalDateRangeFilter) (call : SingleKeyCall) (key : List GroupValue) : Prop :=
  call.Registers key ∨ ∃ row ∈ call.visited filter, row.1 = key

theorem NamedHolds.congr {ι κ : Type} [DecidableEq κ] {ops : KeyIndex ι κ} {WF : ι → Prop}
    {name : κ → List GroupValue} {table : Table ι (KeyedGroup κ)}
    (h : NamedHolds ops WF name maxKind registered rows table)
    (heq : ∀ k, registered k ↔ registered' k) : NamedHolds ops WF name maxKind registered' rows table := by
  obtain ⟨keys,held,htable,hrows,hkeys⟩ := h
  exact ⟨keys,held,htable,hrows,fun k => (heq k).symm.trans (hkeys k)⟩

theorem SingleKeyTable.Holds.congr {table : SingleKeyTable}
    (h : table.Holds tuning maxKind registered rows)
    (heq : ∀ k, registered k ↔ registered' k) : table.Holds tuning maxKind registered' rows := by
  cases table with
  | utf8 table => exact NamedHolds.congr h heq
  | int32 table => exact NamedHolds.congr h heq
  | int64 table => exact NamedHolds.congr h heq

theorem SingleKeyCall.consume_step (call : SingleKeyCall)
    (h : state.table.Holds tuning state.shape.maxKind registered rows)
    (hcall : call.consume tuning simd filter state = .ok state') :
    state'.shape = state.shape ∧ state'.table.Holds tuning state.shape.maxKind
      (fun k => registered k ∨ call.NewKey filter k) (rows + (call.visited filter : List _)) := by
  have hnone (l : List (List GroupValue × DirectRow)) (k : List GroupValue) :
      (registered k ∨ ∃ r ∈ l, r.1 = k) ↔ registered k ∨ False ∨ ∃ r ∈ l, r.1 = k := by rw [false_or]
  cases call with
  | dictionary groupDefLevels dictionaryIds entries sums decimals dates =>
    obtain ⟨hshape,htable⟩ := dictionary_step h hcall
    refine ⟨hshape,htable.congr fun k => or_congr_right ⟨.inl,?_⟩⟩
    rintro (hrow | ⟨row,hrow,rfl⟩)
    · exact hrow
    · exact ⟨row,(List.mem_filter.mp hrow).1,rfl⟩
  | i32Slices keys sums decimals dates predicateApplied =>
    obtain ⟨hshape,htable⟩ := i32Slices_step h hcall
    exact ⟨hshape,htable.congr (hnone _)⟩
  | i32Batch batch =>
    obtain ⟨hshape,htable⟩ := i32Batch_step h hcall
    exact ⟨hshape,htable.congr (hnone _)⟩
  | i64Batch batch =>
    obtain ⟨hshape,htable⟩ := i64Batch_step h hcall
    exact ⟨hshape,htable.congr (hnone _)⟩

end Steps

section Runs

def newI32WithMaxKind (shape : CountSumMinMaxShape) : SingleKeyCountSumMinMaxVectorState :=
  ⟨shape,.int32 ⟨.default,[]⟩⟩

def newI64WithMaxKind (shape : CountSumMinMaxShape) : SingleKeyCountSumMinMaxVectorState :=
  ⟨shape,.int64 ⟨.default,[]⟩⟩

def newUtf8WithMaxKind (shape : CountSumMinMaxShape) : SingleKeyCountSumMinMaxVectorState :=
  ⟨shape,.utf8 ⟨⟨∅,none⟩,[]⟩⟩

def newWithMaxKind (shape : CountSumMinMaxShape) : TwoKeyCountSumMinMaxVectorState := ⟨shape,⟨∅,[]⟩⟩

variable (tuning : Tuning) (simd : Bool) (filter : DecimalDateRangeFilter)

/-- The batches and pages of a scan, one after the other. -/
def runSingleKey (state : SingleKeyCountSumMinMaxVectorState) (calls : List SingleKeyCall) :
    Result SingleKeyCountSumMinMaxVectorState :=
  calls.foldlM (fun state call => call.consume tuning simd filter state) state

def runTwoKey (state : TwoKeyCountSumMinMaxVectorState) (calls : List TwoKeyCall) :
    Result TwoKeyCountSumMinMaxVectorState :=
  calls.foldlM (fun state call => call.consume filter state) state

variable {tuning simd filter}

theorem runSingleKey_holds {state state' : SingleKeyCountSumMinMaxVectorState}
    {registered : List GroupValue → Prop} {rows : Multiset (List GroupValue × DirectRow)} {calls : List SingleKeyCall}
    (h : state.table.Holds tuning state.shape.maxKind registered rows)
    (hrun : runSingleKey tuning simd filter state calls = .ok state') :
    state'.shape = state.shape ∧ state'.table.Holds tuning state.shape.maxKind
      (fun k => registered k ∨ ∃ call ∈ calls, call.NewKey filter k)
      (rows + (calls.flatMap (visited filter) : List _)) := by
  induction calls generalizing state registered rows with
  | nil =>
    cases hrun
    refine ⟨rfl,?_⟩
    rw [List.flatMap_nil,Multiset.coe_nil,add_zero]
    exact h.congr fun k => (or_iff_left fun ⟨_,hcall,_⟩ => List.not_mem_nil hcall).symm
  | cons call calls ih =>
    rw [runSingleKey,List.foldlM_cons] at hrun
    obtain ⟨next,hnext,hrest⟩ := except_bind_eq_ok.mp hrun
    obtain ⟨hshape,hstep⟩ := call.consume_step h hnext
    rw [← hshape] at hstep ⊢
    obtain ⟨hshape',htable⟩ := ih hstep hrest
    refine ⟨hshape',?_⟩
    rw [List.flatMap_cons,← Multiset.coe_add,← add_assoc]
    refine htable.congr fun k => ?_
    rw [List.exists_mem_cons_iff,or_assoc]

end Runs

section TwoKey
variable {filter : DecimalDateRangeFilter} {state state' : TwoKeyCountSumMinMaxVectorState}
  {registered : List GroupValue → Prop} {rows : Multiset (List GroupValue × DirectRow)}

def TwoKeyTable.NamedHolds (maxKind : CountSumMinMaxMaxKind) (registered : List GroupValue → Prop)
    (rows : Multiset (List GroupValue × DirectRow)) (table : TwoKeyTable) : Prop :=
  Aggregate.NamedHolds twoKeyIndex (fun _ => True) twoKeyName maxKind registered rows table

/-- Both entries over two keys keep the rows that match. -/
theorem twoKeyBatch_step {firstKeys : List ℤ} {batch : BatchView}
    (h : TwoKeyTable.NamedHolds state.shape.maxKind registered rows state.table)
    (hcall : consumeFirstDateI64DecimalBatch state firstKeys batch filter = .ok state') :
    state'.shape = state.shape ∧ TwoKeyTable.NamedHolds state.shape.maxKind
      (fun k => registered k ∨ ∃ r ∈ matchingRows filter ((twoKeyRows firstKeys batch).map (nameRow twoKeyName)),
        r.1 = k)
      (rows + (matchingRows filter ((twoKeyRows firstKeys batch).map (nameRow twoKeyName)) : List _))
      state'.table := by
  obtain ⟨dateValues,hdates,hcall⟩ := bind_eq_ok_iff.mp hcall
  obtain ⟨sumValues,hsums,hcall⟩ := bind_eq_ok_iff.mp hcall
  obtain ⟨view,hview,hcall⟩ := bind_eq_ok_iff.mp hcall
  obtain ⟨dates,hdates',hcall⟩ := bind_eq_ok_iff.mp hcall
  obtain ⟨sums,hsums',hcall⟩ := bind_eq_ok_iff.mp hcall
  obtain ⟨-,-,hconsume⟩ := bind_eq_ok_iff.mp hcall
  rw [orUnsupported_eq_ok] at hdates hsums hview hdates' hsums'
  subst hdates' hsums'
  have hrows : twoKeyRows firstKeys batch = zipRows (List.zipWith (fun first (date : I32) =>
      (some first,some date.1)) firstKeys dates) sums view.values dates := by
    rw [twoKeyRows,batchRows,hdates,hsums,hview]
    rfl
  rw [matchingRows_nameRow,hrows]
  have hstep (l : List ((Option ℤ × Option ℤ) × DirectRow)) :
      TwoKeyTable.NamedHolds state.shape.maxKind (fun k => registered k ∨ ∃ r ∈ l.map (nameRow twoKeyName), r.1 = k)
        (rows + (l.map (nameRow twoKeyName) : List _)) (consumePartials state.shape.maxKind twoKeyIndex l state.table) :=
    NamedHolds.step h (fun _ _ htable => htable.consumePartials lawful_twoKeyIndex l) mem_map_nameRow
  cases view with
  | rawI64 values | rawI64Bytes values =>
    obtain ⟨-,-,rfl⟩ := map_eq_ok_iff.mp hconsume
    refine ⟨rfl,?_⟩
    have hkept := hstep (matchingI64Rows false filter (zipRows (List.zipWith (fun first (date : I32) =>
      (some first,some date.1)) firstKeys dates) sums (rawDecimals values) dates))
    rw [matchingI64Rows_eq] at hkept
    rw [matchingI64Rows_eq]
    exact hkept
  | arrow values =>
    obtain ⟨-,-,rfl⟩ := map_eq_ok_iff.mp hconsume
    exact ⟨rfl,hstep _⟩

theorem TwoKeyCall.consume_step (call : TwoKeyCall)
    (h : TwoKeyTable.NamedHolds state.shape.maxKind registered rows state.table)
    (hcall : call.consume filter state = .ok state') :
    state'.shape = state.shape ∧ TwoKeyTable.NamedHolds state.shape.maxKind
      (fun k => registered k ∨ ∃ r ∈ matchingRows filter call.rows, r.1 = k)
      (rows + (matchingRows filter call.rows : List _)) state'.table := by
  cases call with
  | i32Batch batch | i64Batch batch =>
    obtain ⟨keyValues,hkeys,hcall⟩ := bind_eq_ok_iff.mp hcall
    obtain ⟨keys,hkeys',hcall⟩ := bind_eq_ok_iff.mp hcall
    rw [orUnsupported_eq_ok] at hkeys hkeys'
    subst hkeys'
    have hstep := twoKeyBatch_step h hcall
    rw [TwoKeyCall.rows,hkeys]
    exact hstep

theorem runTwoKey_holds {calls : List TwoKeyCall}
    (h : TwoKeyTable.NamedHolds state.shape.maxKind registered rows state.table)
    (hrun : runTwoKey filter state calls = .ok state') :
    state'.shape = state.shape ∧ TwoKeyTable.NamedHolds state.shape.maxKind
      (fun k => registered k ∨ ∃ r ∈ matchingRows filter (calls.flatMap TwoKeyCall.rows), r.1 = k)
      (rows + (matchingRows filter (calls.flatMap TwoKeyCall.rows) : List _)) state'.table := by
  induction calls generalizing state registered rows with
  | nil =>
    cases hrun
    refine ⟨rfl,?_⟩
    have hnone : (matchingRows filter ([].flatMap TwoKeyCall.rows)) = [] := rfl
    rw [hnone,Multiset.coe_nil,add_zero]
    exact NamedHolds.congr h fun k => (or_iff_left fun ⟨_,hrow,_⟩ => List.not_mem_nil hrow).symm
  | cons call calls ih =>
    rw [runTwoKey,List.foldlM_cons] at hrun
    obtain ⟨next,hnext,hrest⟩ := except_bind_eq_ok.mp hrun
    obtain ⟨hshape,hstep⟩ := call.consume_step h hnext
    rw [← hshape] at hstep ⊢
    obtain ⟨hshape',htable⟩ := ih hstep hrest
    refine ⟨hshape',?_⟩
    have happend : matchingRows filter ((call :: calls).flatMap TwoKeyCall.rows) =
        matchingRows filter call.rows ++ matchingRows filter (calls.flatMap TwoKeyCall.rows) := by
      rw [List.flatMap_cons]
      exact List.filter_append _ _
    rw [happend,← Multiset.coe_add,← add_assoc]
    refine NamedHolds.congr htable fun k => ?_
    simp only [List.mem_append,or_and_right,exists_or,or_assoc]

end TwoKey

end Dodam.Execution.Aggregate
