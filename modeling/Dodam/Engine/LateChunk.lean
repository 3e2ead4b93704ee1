import Dodam.Engine.LateSelectionCorrect
import Dodam.Storage.SelectedRaw

/-! # Late materialisation of a chunk

The first pass reads the predicate columns of the row groups and builds a selection; the second
pass reads the payload of the selected rows, directly when it is two decimal columns, else by
rows, and hands it to the consumer.
-/
namespace Dodam.Engine
open Cost Execution Storage

structure LateMaterializedMetrics where
  totalRows : ℕ
  selectedRows : ℕ
  selectorRuns : ℕ
  predicateBatches : ℕ
  payloadBatches : ℕ := 0
  payloadRows : ℕ := 0

/-- A reader fails when it is opened, or hands over batches up to one that fails. -/
abbrev BatchReader (ρ : Type*) := Result (List (Result (List ρ)))

/-- The chunk of a file, the settings, and the readers of its row groups. -/
structure LateChunk (π γ : Type*) where
  file : ColumnFile γ
  rowGroups : List ℕ
  payloadProjection : Projection
  payloadDictionaryColumns : List String
  directRawI64PayloadEnabled : Bool
  policyAccepts : LateMaterializedMetrics → Bool
  predicateReader : BatchReader π
  payloadReader : List RowSelector → BatchReader (List (Cell γ))
  payloadDictionaryReader : List RowSelector → BatchReader (List (Cell γ))

section Pass
variable {π γ σ ω : Type*}

def predicatePass (buildSelection : List π → LateSelectionBuilder → σ → Result (Option (LateSelectionBuilder × σ))) :
    List (Result (List π)) → LateSelectionBuilder → σ → ℕ → Result (Option (LateSelectionBuilder × σ × ℕ))
  | [], b, state, batches => .ok (some (b,state,batches))
  | batch :: rest, b, state, batches => batch.bind fun batch =>
    (buildSelection batch b state).bind fun
      | none => .ok none
      | some (b,state) => predicatePass buildSelection rest b state (saturatingAdd batches 1)

def payloadPass (consumePayload : Storage.BatchView γ → σ → Result (Option σ)) :
    List (Result (List (List (Cell γ)))) → LateMaterializedMetrics → σ → Result (Option (LateMaterializedMetrics × σ))
  | [], metrics, state => .ok (some (metrics,state))
  | batch :: rest, metrics, state => batch.bind fun batch =>
    (consumePayload (.recordBatch batch) state).bind fun
      | none => .ok none
      | some state => payloadPass consumePayload rest
        { metrics with
          payloadBatches := saturatingAdd metrics.payloadBatches 1
          payloadRows := saturatingAdd metrics.payloadRows batch.length } state

/-- The two payload columns and their types, when both are decimals. -/
def lateMaterializedDecimalI64PayloadColumns (columns : List ColumnDesc) (payloadProjection : Projection) :
    Option ((String × String) × (ℕ × ℤ) × (ℕ × ℤ)) :=
  match payloadProjection with
  | .columns [first,second] => (decimalField columns first).bind fun firstType =>
      (decimalField columns second).map fun secondType => ((first,second),(firstType,secondType))
  | _ => none

def lateMaterializedSelectorRunsByRowGroup (file : ColumnFile γ) (rowGroups : List ℕ)
    (selectors : List RowSelector) : Option (List (List (ℕ × ℕ))) :=
  (rowGroups.mapM (file.rowGroups[·]?)).map fun groups =>
    splitLateSelectorsByRowGroup selectors (groups.map RowGroup.rowCount)

/-- A payload that the consumer does not take is an error. -/
def consumeDirect (consumePayload : Storage.BatchView γ → σ → Result (Option σ)) (view : Storage.BatchView γ) (state : σ) :
    Result σ :=
  (consumePayload view state).bind fun
    | some state => .ok state
    | none => unsupportedSql "direct late raw payload consumer rejected batch"

def directPayload (c : LateChunk π γ) (selectors : List RowSelector)
    (consumePayload : Storage.BatchView γ → σ → Result (Option σ)) (state : σ) : Result (Option DirectScanMetrics × σ) :=
  if c.payloadDictionaryColumns ≠ [] ∨ !c.directRawI64PayloadEnabled then .ok (none,state)
  else
    match lateMaterializedDecimalI64PayloadColumns c.file.columns c.payloadProjection,
      lateMaterializedSelectorRunsByRowGroup c.file c.rowGroups selectors with
    | some (columns,types), some runs =>
      scanParquetI64I64SelectedRawColumns c.file c.rowGroups columns types runs (consumeDirect consumePayload) state
    | _, _ => .ok (none,state)

def finishChunk (finish : σ → LateMaterializedMetrics → Result (Option ω)) (state : σ)
    (metrics : LateMaterializedMetrics) : Result (Option (ω × LateMaterializedMetrics)) :=
  (finish state metrics).map fun output => output.map fun output => (output,metrics)

def consumeSelection (c : LateChunk π γ) (selection selectors : List RowSelector)
    (consumePayload : Storage.BatchView γ → σ → Result (Option σ))
    (finish : σ → LateMaterializedMetrics → Result (Option ω)) (metrics : LateMaterializedMetrics) (state : σ) :
    Result (Option (ω × LateMaterializedMetrics)) :=
  (directPayload c selectors consumePayload state).bind fun
    | (some direct,state) => finishChunk finish state
        { metrics with payloadBatches := direct.batches, payloadRows := direct.selectedRows }
    | (none,state) =>
      (if c.payloadDictionaryColumns = [] then c.payloadReader selection
        else c.payloadDictionaryReader selection).bind fun batches =>
        (payloadPass consumePayload batches metrics state).bind fun
          | none => .ok none
          | some (metrics,state) => finishChunk finish state metrics

def lateMaterializedChunkView (c : LateChunk π γ)
    (buildSelection : List π → LateSelectionBuilder → σ → Result (Option (LateSelectionBuilder × σ)))
    (consumePayload : Storage.BatchView γ → σ → Result (Option σ))
    (finish : σ → LateMaterializedMetrics → Result (Option ω)) (state : σ) :
    Result (Option (ω × LateMaterializedMetrics)) :=
  c.predicateReader.bind fun batches =>
    (predicatePass buildSelection batches {} state 0).bind fun
      | none => .ok none
      | some (b,state,predicateBatches) =>
        let out := b.finishWithSelectors
        let metrics : LateMaterializedMetrics :=
          { totalRows := out.totalRows
            selectedRows := out.selectedRows
            selectorRuns := out.selectorRuns
            predicateBatches := predicateBatches }
        if !c.policyAccepts metrics then .ok none
        else
          match out.selection with
          | none => finishChunk finish state metrics
          | some selection => consumeSelection c selection out.selectors consumePayload finish metrics state

end Pass

end Dodam.Engine

/-! ## The payload of the selected rows is consumed once

An output is the end of a state to which the payload of exactly the selected
rows was handed, in order. Whichever reader supplies it, the rows are the same,
as long as the direct reader does not take a nested leaf for a column of the
same name.
-/
namespace Dodam.Engine
open Cost Execution Foundation Storage

variable {π γ σ ω : Type*}

/-- The closure reports a decision for each row of its batch. -/
def ReportsRows (tuning : LateCoalesceTuning)
    (buildSelection : List π → LateSelectionBuilder → σ → Result (Option (LateSelectionBuilder × σ))) : Prop :=
  ∀ batch b state b' state', buildSelection batch b state = .ok (some (b',state')) →
    ∃ fuel calls markers, (∀ call ∈ calls, LateCall.Valid call) ∧ pushedRows calls = batch.length ∧
      runCalls tuning fuel calls b = some (b',markers)

def FoldsRows (consumePayload : Storage.BatchView γ → σ → Result (Option σ)) (step : σ → List (Cell γ) → σ) : Prop :=
  ∀ view state state', consumePayload view state = .ok (some state') → state' = view.rows.foldl step state

def ReadsSelection (rows : List (List (Cell γ))) (reader : List RowSelector → BatchReader (List (Cell γ))) : Prop :=
  ∀ (selection : List RowSelector) (batches : List (List (List (Cell γ)))), (expandRuns (selection.map RowSelector.run)).length = rows.length →
    reader selection = .ok (batches.map .ok) →
    batches.flatten = selectAt (fun i => (expandRuns (selection.map RowSelector.run))[i]? = some true) 0 rows

def LateChunk.payload (c : LateChunk π γ) (groups : List (RowGroup γ)) : List (List (Cell γ)) :=
  payloadRows (c.payloadProjection.names c.file.columns) groups

/-- The row groups exist, their rows fit a counter, and the readers return their rows. -/
structure LateChunk.Reads (c : LateChunk π γ) (groups : List (RowGroup γ)) (predicateRows : List π) : Prop where
  exist : List.Forall₂ (fun i g => c.file.rowGroups[i]? = some g) c.rowGroups groups
  holds : ∀ g ∈ groups, g.Holds c.file.columns
  fits : (rowPositions groups).length < 2 ^ 64
  rows : predicateRows.length = (rowPositions groups).length
  predicate : ∀ batches : List (List π), c.predicateReader = .ok (batches.map .ok) → batches.flatten = predicateRows
  payload : ReadsSelection (c.payload groups) c.payloadReader
  payloadDictionary : ReadsSelection (c.payload groups) c.payloadDictionaryReader

/-- The output is the end of the state after the payload of the rows that the predicate pass selected. -/
def ConsumesSelected (c : LateChunk π γ) (groups : List (RowGroup γ))
    (buildSelection : List π → LateSelectionBuilder → σ → Result (Option (LateSelectionBuilder × σ)))
    (step : σ → List (Cell γ) → σ) (finish : σ → LateMaterializedMetrics → Result (Option ω)) (state : σ)
    (output : ω) (metrics : LateMaterializedMetrics) : Prop :=
  ∃ (batches : List (List π)) (b : LateSelectionBuilder) (flags : List Bool) (s : σ) (predicateBatches : ℕ)
      (rows : List (List (Cell γ))),
    c.predicateReader = .ok (batches.map .ok) ∧
    predicatePass buildSelection (batches.map .ok) {} state 0 = .ok (some (b,s,predicateBatches)) ∧
    b.Holds flags ∧ flags.length = (rowPositions groups).length ∧
    rows = selectAt (fun i => flags[i]? = some true) 0 (c.payload groups) ∧
    finish (rows.foldl step s) metrics = .ok (some output) ∧
    metrics.selectedRows = rows.length ∧ metrics.payloadRows = rows.length

section Predicate
variable {tuning : LateCoalesceTuning}
  {buildSelection : List π → LateSelectionBuilder → σ → Result (Option (LateSelectionBuilder × σ))}

variable {b b' : LateSelectionBuilder}

theorem predicatePass_batches {batches : List (Result (List π))} {state state' : σ}
    {n n' : ℕ} (h : predicatePass buildSelection batches b state n = .ok (some (b',state',n'))) :
    ∃ read : List (List π), batches = read.map .ok := by
  induction batches generalizing b state n with
  | nil => exact ⟨[],rfl⟩
  | cons batch batches ih =>
    rw [predicatePass] at h
    obtain ⟨rows,rfl,hrest⟩ := bind_eq_ok_iff.mp h
    obtain ⟨next,-,hrest⟩ := bind_eq_ok_iff.mp hrest
    cases next with
    | none => cases hrest
    | some next =>
      obtain ⟨read,rfl⟩ := ih hrest
      exact ⟨rows :: read,rfl⟩

theorem predicatePass_reports (hreports : ReportsRows tuning buildSelection) {batches : List (List π)} {base : List Bool} {state state' : σ} {n n' : ℕ}
    (h : predicatePass buildSelection (batches.map .ok) b state n = .ok (some (b',state',n'))) (hholds : b.Holds base)
    (hcounts : b.Counts base) (hfit : base.length + batches.flatten.length < 2 ^ 64) :
    ∃ flags, flags.length = batches.flatten.length ∧ b'.Holds (base ++ flags) ∧ b'.Counts (base ++ flags) := by
  induction batches generalizing b base state n with
  | nil =>
    cases h
    exact ⟨[],rfl,by rwa [List.append_nil],by rwa [List.append_nil]⟩
  | cons batch batches ih =>
    rw [List.map_cons,predicatePass] at h
    obtain ⟨_,hbatch,hrest⟩ := bind_eq_ok_iff.mp h
    cases hbatch
    obtain ⟨next,hbuild,hrest⟩ := bind_eq_ok_iff.mp hrest
    cases next with
    | none => cases hrest
    | some next =>
      obtain ⟨fuel,calls,markers,hvalid,hpushed,hrun⟩ := hreports _ _ _ _ _ hbuild
      rw [List.flatten_cons,List.length_append] at hfit
      obtain ⟨reported,hall,hlengths,hholds',hcounts'⟩ := runCalls_spec hvalid hholds hcounts (by omega) hrun
      have hlen : reported.flatten.length = batch.length :=
        (length_flatten_of_reports hlengths hall).trans hpushed
      obtain ⟨flags,hflags,hspec⟩ := ih hrest hholds' hcounts' (by
        rw [List.length_append]
        omega)
      refine ⟨reported.flatten ++ flags,?_,?_⟩
      · rw [List.length_append,List.flatten_cons,List.length_append,hlen,hflags]
      · rwa [← List.append_assoc]

end Predicate

section Payload
variable {c : LateChunk π γ} {consumePayload : Storage.BatchView γ → σ → Result (Option σ)} {step : σ → List (Cell γ) → σ}

theorem payloadPass_folds (hfolds : FoldsRows consumePayload step) {batches : List (Result (List (List (Cell γ))))}
    {metrics metrics' : LateMaterializedMetrics} {state state' : σ}
    (h : payloadPass consumePayload batches metrics state = .ok (some (metrics',state'))) :
    ∃ read : List (List (List (Cell γ))), batches = read.map .ok ∧ state' = read.flatten.foldl step state ∧
      metrics'.selectedRows = metrics.selectedRows ∧ (metrics.payloadRows + read.flatten.length < 2 ^ 64 →
        metrics'.payloadRows = metrics.payloadRows + read.flatten.length) := by
  induction batches generalizing metrics state with
  | nil =>
    cases h
    exact ⟨[],rfl,rfl,rfl,fun _ => rfl⟩
  | cons batch batches ih =>
    rw [payloadPass] at h
    obtain ⟨rows,rfl,hrest⟩ := bind_eq_ok_iff.mp h
    obtain ⟨next,hconsume,hrest⟩ := bind_eq_ok_iff.mp hrest
    cases next with
    | none => cases hrest
    | some next =>
      have hnext : next = rows.foldl step state := hfolds _ _ _ hconsume
      obtain ⟨read,rfl,rfl,hselected,hrows⟩ := ih hrest
      refine ⟨rows :: read,rfl,?_,hselected,fun hfit => ?_⟩
      · rw [List.flatten_cons,List.foldl_append,hnext]
      · rw [List.flatten_cons,List.length_append] at hfit ⊢
        have hadd : saturatingAdd metrics.payloadRows rows.length = metrics.payloadRows + rows.length :=
          saturatingAdd_of_lt (by omega)
        rw [hrows (by simp only [hadd]; omega)]
        simp only [hadd]
        omega

theorem directPayload_declines {selectors : List RowSelector} {state state' : σ}
    (h : directPayload c selectors consumePayload state = .ok (none,state')) : state' = state := by
  unfold directPayload at h
  split_ifs at h
  · cases h
    rfl
  · split at h
    · exact scan_declines h
    · cases h
      rfl

theorem groupRuns_of_marks {q : ℕ → Prop} {groups : List (RowGroup γ)} {runs : List (List (ℕ × ℕ))} {start : ℕ}
    (hlength : runs.length = groups.length)
    (h : ∀ (k : ℕ) g intervals, groups[k]? = some g → runs[k]? = some intervals →
      Marks (fun i => i < g.rowCount ∧ q (start + groupStart (groups.map RowGroup.rowCount) k + i)) intervals) :
    GroupRuns q start groups runs := by
  induction groups generalizing start runs with
  | nil =>
    rw [List.eq_nil_of_length_eq_zero hlength]
    exact .nil
  | cons g groups ih =>
    obtain ⟨intervals,runs,rfl⟩ := List.exists_cons_of_length_eq_add_one hlength
    refine .cons ?_ (ih (Nat.succ.inj hlength) fun k g' intervals' hg hintervals => ?_)
    · exact h 0 g intervals rfl rfl
    · have hk := h (k + 1) g' intervals' hg hintervals
      rwa [show groupStart ((g :: groups).map RowGroup.rowCount) (k + 1) =
        g.rowCount + groupStart (groups.map RowGroup.rowCount) k by simp [groupStart],← Nat.add_assoc] at hk

end Payload

/-- Where the direct reader may be used, the leaves it finds are the columns themselves. -/
def DirectPayloadOwn (columns : List ColumnDesc) (enabled : Bool) (dictionaryColumns : List String)
    (projection : Projection) : Prop :=
  enabled = true → dictionaryColumns = [] → ∀ a b, projection = .columns [a,b] →
    (decimalField columns a).isSome → (decimalField columns b).isSome →
    ∀ first second, columns.find? (·.name == a) = some first → columns.find? (·.name == b) = some second →
      first.DirectI64 → second.DirectI64 → first.path = [a] ∧ second.path = [b]

section Selected
variable {c : LateChunk π γ} {groups : List (RowGroup γ)} {predicateRows : List π}
  {consumePayload : Storage.BatchView γ → σ → Result (Option σ)} {step : σ → List (Cell γ) → σ}

variable {selectors : List RowSelector} {flags : List Bool} {state : σ}
variable {finish : σ → LateMaterializedMetrics → Result (Option ω)}
variable {metrics metrics' : LateMaterializedMetrics} {output : ω}

theorem groupRuns_of_flags
    (hflags : expandRuns (selectors.map RowSelector.run) = flags) (hlength : flags.length = (rowPositions groups).length)
    (hfit : (rowPositions groups).length < 2 ^ 64) :
    GroupRuns (fun i => flags[i]? = some true) 0 groups
      (splitLateSelectorsByRowGroup selectors (groups.map RowGroup.rowCount)) := by
  rw [length_rowPositions] at hlength hfit
  obtain ⟨hlen,hmarks⟩ := splitLateSelectorsByRowGroup_marks hflags hlength hfit
  refine groupRuns_of_marks (hlen.trans (List.length_map _)) fun k g intervals hg hintervals => ?_
  have hcount : (groups.map RowGroup.rowCount)[k]? = some g.rowCount := by
    rw [List.getElem?_map,hg]
    rfl
  simpa only [Nat.zero_add] using hmarks k g.rowCount intervals hcount hintervals

theorem lateMaterializedDecimalI64PayloadColumns_eq_some {columns : List ColumnDesc} {projection : Projection}
    {found : (String × String) × (ℕ × ℤ) × (ℕ × ℤ)}
    (h : lateMaterializedDecimalI64PayloadColumns columns projection = some found) :
    projection = .columns [found.1.1,found.1.2] ∧ decimalField columns found.1.1 = some found.2.1 ∧
      decimalField columns found.1.2 = some found.2.2 := by
  unfold lateMaterializedDecimalI64PayloadColumns at h
  split at h
  · obtain ⟨firstType,hfirst,h⟩ := Option.bind_eq_some_iff.mp h
    obtain ⟨secondType,hsecond,h⟩ := Option.map_eq_some_iff.mp h
    subst h
    exact ⟨rfl,hfirst,hsecond⟩
  · cases h

/-- A direct attempt that reads the payload hands the selected rows over. -/
theorem directPayload_folds (hreads : c.Reads groups predicateRows) (hfolds : FoldsRows consumePayload step)
    (hown : DirectPayloadOwn c.file.columns c.directRawI64PayloadEnabled c.payloadDictionaryColumns c.payloadProjection) {state' : σ} {direct : DirectScanMetrics}
    (hflags : expandRuns (selectors.map RowSelector.run) = flags)
    (hlength : flags.length = (rowPositions groups).length) (hsome : flags.count true ≠ 0)
    (h : directPayload c selectors consumePayload state = .ok (some direct,state')) :
    direct.selectedRows = flags.count true ∧
      state' = (selectAt (fun i => flags[i]? = some true) 0 (c.payload groups)).foldl step state := by
  have hcount : (selectAt (fun i => flags[i]? = some true) 0 (rowPositions groups)).length = flags.count true :=
    length_selectAt_flags hlength.symm
  have hruns := groupRuns_of_flags hflags hlength hreads.fits
  have hexist : c.rowGroups.mapM (c.file.rowGroups[·]?) = some groups := mapM_eq_some_iff.mpr hreads.exist
  unfold directPayload at h
  rw [lateMaterializedSelectorRunsByRowGroup,hexist] at h
  split_ifs at h with hoff
  · cases h
  · obtain ⟨hdictionary,henabled⟩ := not_or.mp hoff
    cases hcolumns : lateMaterializedDecimalI64PayloadColumns c.file.columns c.payloadProjection with
    | none =>
      rw [hcolumns] at h
      cases h
    | some found =>
      rw [hcolumns] at h
      obtain ⟨⟨a,b⟩,types⟩ := found
      obtain ⟨hprojection,htype,htype'⟩ := lateMaterializedDecimalI64PayloadColumns_eq_some hcolumns
      have hselected : selectAt (fun i => flags[i]? = some true) 0 (rowPositions groups) ≠ [] := by
        intro hnil
        rw [hnil] at hcount
        exact hsome hcount.symm
      obtain ⟨hrows,first,second,⟨hfirst,hdirect⟩,⟨hsecond,hdirect'⟩,hconsumes⟩ :=
        scan_consumes hreads.exist hreads.holds hruns hreads.fits htype htype' hselected h
      obtain ⟨hpath,hpath'⟩ := hown (by simpa using henabled) (not_not.mp hdictionary) a b hprojection
        (by rw [htype]; rfl) (by rw [htype']; rfl) first second hfirst hsecond hdirect hdirect'
      obtain ⟨view,hview,hconsume⟩ := hconsumes hpath hpath'
      refine ⟨hrows.trans hcount,?_⟩
      have hnames : c.payload groups = payloadRows [a,b] groups := by
        rw [LateChunk.payload,hprojection]
        rfl
      obtain ⟨next,htaken,hnext⟩ := bind_eq_ok_iff.mp hconsume
      cases next with
      | none => cases hnext
      | some next =>
        cases hnext
        rw [hnames,← hview]
        exact hfolds _ _ _ htaken

theorem finishChunk_eq_ok (h : finishChunk finish state metrics = .ok (some (output,metrics'))) :
    metrics = metrics' ∧ finish state metrics = .ok (some output) := by
  obtain ⟨result,hfinish,h⟩ := map_eq_ok_iff.mp h
  obtain ⟨_,rfl,hout⟩ := Option.map_eq_some_iff.mp h
  cases hout
  exact ⟨rfl,hfinish⟩

theorem consumeSelection_folds (hreads : c.Reads groups predicateRows) (hfolds : FoldsRows consumePayload step)
    (hown : DirectPayloadOwn c.file.columns c.directRawI64PayloadEnabled c.payloadDictionaryColumns c.payloadProjection)
    (hflags : expandRuns (selectors.map RowSelector.run) = flags)
    (hlength : flags.length = (rowPositions groups).length) (hsome : flags.count true ≠ 0)
    (hmetrics : metrics.payloadRows = 0)
    (h : consumeSelection c selectors selectors consumePayload finish metrics state = .ok (some (output,metrics'))) :
    finish ((selectAt (fun i => flags[i]? = some true) 0 (c.payload groups)).foldl step state) metrics' =
        .ok (some output) ∧
      metrics'.selectedRows = metrics.selectedRows ∧ metrics'.payloadRows = flags.count true := by
  have hpayload : (c.payload groups).length = (rowPositions groups).length := List.length_map _
  have hcount : (selectAt (fun i => flags[i]? = some true) 0 (c.payload groups)).length = flags.count true :=
    length_selectAt_flags (hpayload.trans hlength.symm)
  obtain ⟨⟨direct,state'⟩,hdirect,hrest⟩ := bind_eq_ok_iff.mp h
  cases direct with
  | some direct =>
    obtain ⟨hrows,hstate⟩ := directPayload_folds hreads hfolds hown hflags hlength hsome hdirect
    obtain ⟨rfl,hfinish⟩ := finishChunk_eq_ok hrest
    exact ⟨hstate ▸ hfinish,rfl,hrows⟩
  | none =>
    rw [directPayload_declines hdirect] at hrest
    obtain ⟨batches,hbatches,hrest⟩ := bind_eq_ok_iff.mp hrest
    obtain ⟨result,hpass,hrest⟩ := bind_eq_ok_iff.mp hrest
    cases result with
    | none => cases hrest
    | some result =>
      obtain ⟨metrics₁,state₁⟩ := result
      obtain ⟨rfl,hfinish⟩ := finishChunk_eq_ok hrest
      obtain ⟨read,rfl,rfl,hselected,hrows⟩ := payloadPass_folds hfolds hpass
      have hread : read.flatten = selectAt (fun i => flags[i]? = some true) 0 (c.payload groups) := by
        subst hflags
        split_ifs at hbatches
        · exact hreads.payload _ _ (hlength.trans hpayload.symm) hbatches
        · exact hreads.payloadDictionary _ _ (hlength.trans hpayload.symm) hbatches
      rw [hread] at hfinish hrows
      refine ⟨hfinish,hselected,?_⟩
      have hle : flags.count true ≤ flags.length := List.count_le_length
      have hfit := hreads.fits
      rw [hrows (by omega),hcount,hmetrics,Nat.zero_add]

/-- Two passes hand over what one pass over the selected rows would. -/
theorem chunkView_consumesSelected (hreads : c.Reads groups predicateRows) {tuning : LateCoalesceTuning}
    {buildSelection : List π → LateSelectionBuilder → σ → Result (Option (LateSelectionBuilder × σ))}
    (hreports : ReportsRows tuning buildSelection) (hfolds : FoldsRows consumePayload step)
    (hown : DirectPayloadOwn c.file.columns c.directRawI64PayloadEnabled c.payloadDictionaryColumns c.payloadProjection)
    (h : lateMaterializedChunkView c buildSelection consumePayload finish state = .ok (some (output,metrics))) :
    ConsumesSelected c groups buildSelection step finish state output metrics := by
  obtain ⟨batches,hpredicate,hrest⟩ := bind_eq_ok_iff.mp h
  obtain ⟨result,hpass,hview⟩ := bind_eq_ok_iff.mp hrest
  clear h hrest
  cases result with
  | none => cases hview
  | some result =>
    obtain ⟨b,s,predicateBatches⟩ := result
    obtain ⟨read,rfl⟩ := predicatePass_batches hpass
    have hread := hreads.predicate read hpredicate
    have hrows := hreads.rows
    have hfits := hreads.fits
    obtain ⟨flags,hlength,hholds,hcounts⟩ := predicatePass_reports hreports hpass LateSelectionBuilder.holds_empty ⟨rfl,rfl⟩ (by
      rw [hread,hrows,List.length_nil]
      omega)
    rw [List.nil_append] at hholds hcounts
    have hlen : flags.length = (rowPositions groups).length := by
      rw [hlength,hread,hrows]
    have hpayload : (c.payload groups).length = (rowPositions groups).length := List.length_map _
    have hcount : (selectAt (fun i => flags[i]? = some true) 0 (c.payload groups)).length = flags.count true :=
      length_selectAt_flags (hpayload.trans hlen.symm)
    have hselectors : expandRuns (b.finishLateSelectorRun.map RowSelector.run) = flags := by
      rw [hholds.finish]
      exact hholds.expand
    have hselected : b.selectedRows = flags.count true := hcounts.selected
    refine ⟨read,b,flags,s,predicateBatches,_,hpredicate,hpass,hholds,hlen,rfl,?_⟩
    dsimp only [LateSelectionBuilder.finishWithSelectors] at hview
    split_ifs at hview with hpolicy hpos
    · cases hview
    · obtain ⟨hfinish,hsame,hpayloadRows⟩ :=
        consumeSelection_folds hreads hfolds hown hselectors hlen (by omega) rfl hview
      exact ⟨hfinish,by rw [hsame,hcount]; exact hselected,by rw [hpayloadRows,hcount]⟩
    · obtain ⟨rfl,hfinish⟩ := finishChunk_eq_ok hview
      have hnone : selectAt (fun i => flags[i]? = some true) 0 (c.payload groups) = [] :=
        List.eq_nil_of_length_eq_zero (by omega)
      rw [hnone]
      exact ⟨hfinish,by rw [List.length_nil]; show b.selectedRows = 0; omega,rfl⟩

end Selected

end Dodam.Engine
