import Dodam.Engine.LateChunk

/-! # When the direct payload is the payload

Two passes equal one for every file of a schema if, and only if, the direct reader finds the
payload columns themselves.
-/
namespace Dodam.Engine
open Cost Execution Foundation Storage

/-- For every file of the schema, every selection and every consumer that folds rows, an output is
the end of the state after the selected payload, and an attempt that declines has consumed nothing. -/
def MaterialisesSelected (columns : List ColumnDesc) (enabled : Bool) (dictionaryColumns : List String)
    (projection : Projection) : Prop :=
  ∀ (π γ σ ω : Type) (c : LateChunk π γ) (groups : List (RowGroup γ)) (predicateRows : List π)
    (tuning : LateCoalesceTuning)
    (buildSelection : List π → LateSelectionBuilder → σ → Result (Option (LateSelectionBuilder × σ)))
    (consumePayload : Storage.BatchView γ → σ → Result (Option σ)) (step : σ → List (Cell γ) → σ)
    (finish : σ → LateMaterializedMetrics → Result (Option ω)) (state : σ),
    c.file.columns = columns → c.directRawI64PayloadEnabled = enabled →
    c.payloadDictionaryColumns = dictionaryColumns → c.payloadProjection = projection →
    c.Reads groups predicateRows → ReportsRows tuning buildSelection → FoldsRows consumePayload step →
    (∀ output metrics, lateMaterializedChunkView c buildSelection consumePayload finish state =
        .ok (some (output,metrics)) →
      ConsumesSelected c groups buildSelection step finish state output metrics) ∧
    ∀ selectors s s', directPayload c selectors consumePayload s = .ok (none,s') → s' = s

def leafValue (column : ColumnDesc) : ℤ := if column.path.length = 1 then 0 else 1

def oneRowPage (column : ColumnDesc) : DataPage :=
  { numValues := 1
    levels := .v1 (.rle [column.maxDefLevel])
    values := .plain [leafValue column] }

def oneRowGroup (columns : List ColumnDesc) : RowGroup Unit :=
  { rowCount := 1
    pages := columns.map fun column => [.data (oneRowPage column)]
    cell := fun name _ => match decimalField columns name with
      | some type => .decimal128 type (some 0)
      | none => .other () }

def oneRowChunk (columns : List ColumnDesc) (a b : String) : LateChunk Unit Unit :=
  { file := ⟨columns,[oneRowGroup columns]⟩
    rowGroups := [0]
    payloadProjection := .columns [a,b]
    payloadDictionaryColumns := []
    directRawI64PayloadEnabled := true
    policyAccepts := fun _ => true
    predicateReader := .ok [.ok [()]]
    payloadReader := fun _ => .error (.err .arrow)
    payloadDictionaryReader := fun _ => .error (.err .arrow) }

def selectOne (batch : List Unit) (b : LateSelectionBuilder) (rows : List (List (Cell Unit))) :
    Result (Option (LateSelectionBuilder × List (List (Cell Unit)))) :=
  if batch.length = 1 then .ok (some (b.push true,rows)) else .ok none

def collectRows (view : Storage.BatchView Unit) (rows : List (List (Cell Unit))) : Result (Option (List (List (Cell Unit)))) :=
  .ok (some (rows ++ view.rows))

def returnRows (rows : List (List (Cell Unit))) (_ : LateMaterializedMetrics) :
    Result (Option (List (List (Cell Unit)))) := .ok (some rows)

section OneRow
variable {columns : List ColumnDesc} {a b : String}

theorem oneRowPage_holds (column : ColumnDesc) :
    ChunkHolds column.maxDefLevel none [.data (oneRowPage column)] [some (leafValue column)] := by
  have hpage : (oneRowPage column).Holds column.maxDefLevel none [some (leafValue column)] := by
    refine ⟨rfl,fun _ row hrow => ?_,fun _ => ?_,List.prefix_rfl⟩
    · rw [List.mem_singleton.mp hrow]
      rfl
    · show [true] = [column.maxDefLevel == column.maxDefLevel]
      rw [beq_self_eq_true]
  exact .data hpage .nil

theorem oneRowGroup_holds (columns : List ColumnDesc) : (oneRowGroup columns).Holds columns := by
  intro index column pages hcolumn hpages _
  have hpages' : pages = [.data (oneRowPage column)] := by
    rw [oneRowGroup,List.getElem?_map,hcolumn] at hpages
    exact (Option.some.inj hpages).symm
  subst hpages'
  refine ⟨[some (leafValue column)],rfl,oneRowPage_holds column,fun name type hpath htype i value hvalue => ?_⟩
  have hzero : leafValue column = 0 := by
    rw [leafValue,hpath]
    rfl
  cases i with
  | succ i => cases hvalue
  | zero =>
    cases hvalue
    rw [hzero]
    simp only [oneRowGroup,htype]

theorem oneRowChunk_reads (columns : List ColumnDesc) (a b : String) :
    (oneRowChunk columns a b).Reads [oneRowGroup columns] [()] := by
  refine ⟨.cons rfl .nil,fun g hg => ?_,?_,rfl,fun batches h => ?_,fun _ _ _ h => ?_,fun _ _ _ h => ?_⟩
  · rw [List.mem_singleton.mp hg]
    exact oneRowGroup_holds columns
  · show 1 < 2 ^ 64
    decide
  · have hbatches : [[()]] = batches := List.map_injective_iff.mpr (fun _ _ => Except.ok.inj) (Except.ok.inj h)
    rw [← hbatches]
    rfl
  · cases h
  · cases h

theorem selectOne_reports : ReportsRows ⟨16,8⟩ selectOne := by
  intro batch b rows b' rows' h
  unfold selectOne at h
  split_ifs at h with hlength
  · cases h
    refine ⟨0,[.push true],[[]],fun call hcall => ?_,hlength.symm,rfl⟩
    rw [List.mem_singleton.mp hcall]
    exact ⟨by decide,by decide,.nil,fun _ h => absurd h List.not_mem_nil⟩
  · cases h

theorem collectRows_folds : FoldsRows collectRows fun rows row => rows ++ [row] := by
  intro view rows rows' h
  cases h
  rw [List.foldl_append_eq_append,← List.flatMap_def,List.flatMap_singleton']

variable {column : ColumnDesc}

theorem readPlainI64SelectedRuns_oneRow (h : column.DirectI64) (output : List ℤ) :
    readPlainI64SelectedRuns column [.data (oneRowPage column)] 1 [(0,1)] output =
      .ok (some (output ++ [leafValue column])) := by
  obtain ⟨hphysical,hrep,hdef⟩ := h
  have hpage : readSelectedPage column.maxDefLevel (oneRowPage column) none (localRanges 0 1 [(0,1)]) =
      .ok (some [leafValue column]) := by
    unfold readSelectedPage
    split_ifs
    · rfl
    · show readNullablePage (oneRowPage column) [column.maxDefLevel == column.maxDefLevel] none _ = _
      rw [beq_self_eq_true]
      rfl
  have hread : readPage column.maxDefLevel [(0,1)] { cursor := [(0,1)], output := output }
      (.data (oneRowPage column)) =
        .ok (some { pageRowStart := 1, cursor := [(0,1)], output := output ++ [leafValue column] }) := by
    show (readSelectedPage column.maxDefLevel (oneRowPage column) none (localRanges 0 1 [(0,1)])).map _ = _
    rw [hpage]
    rfl
  rw [readPlainI64SelectedRuns,if_neg (by simp [hphysical,hrep,hdef]),readPages,hread]
  rfl

theorem exists_leafIndex {name : String} (h : columns.find? (·.name == name) = some column) :
    ∃ index, columns.findIdx? (·.name == name) = some index ∧ columns[index]? = some column ∧
      (oneRowGroup columns).pages[index]? = some [.data (oneRowPage column)] := by
  rw [List.find?_eq_bind_findIdx?_getElem?] at h
  obtain ⟨index,hindex,hcolumn⟩ := Option.bind_eq_some_iff.mp h
  refine ⟨index,hindex,hcolumn,?_⟩
  rw [oneRowGroup,List.getElem?_map,hcolumn]
  rfl

theorem readSelectedColumn_oneRow {index : ℕ} (hcolumn : columns[index]? = some column)
    (hpages : (oneRowGroup columns).pages[index]? = some [.data (oneRowPage column)]) (hdirect : column.DirectI64) :
    readSelectedColumn (oneRowChunk columns a b).file (oneRowGroup columns) index [(0,1)] [] =
      .ok (some [leafValue column]) := by
  unfold readSelectedColumn
  rw [hpages,show (oneRowChunk columns a b).file.columns[index]? = some column from hcolumn]
  exact readPlainI64SelectedRuns_oneRow hdirect []

theorem split_oneRow : splitLateSelectorsByRowGroup [.select 1] [1] = [[(0,1)]] := by
  have hskip : skipRowGroups [1] 0 ⟨0,0,1⟩ = ⟨0,0,1⟩ := by
    rw [skipRowGroups]
    rfl
  have hsplit : splitSelector [1] 1 0 ⟨0,0,1⟩ [[]] = (⟨1,1,1⟩,[[(0,1)]]) := by
    rw [splitSelector,if_pos (by decide)]
    show splitSelector [1] 1 1 ⟨1,1,1⟩ [[(0,1)]] = _
    rw [splitSelector]
    rfl
  show (splitSelector [1] 1 0 (skipRowGroups [1] 0 ⟨0,0,1⟩) [[]]).2 = _
  rw [hskip,hsplit]

/-- The direct reader hands over what the first leaves of the names hold. -/
theorem directPayload_oneRow {first second : ColumnDesc} (types : (ℕ × ℤ) × (ℕ × ℤ))
    (htype : decimalField columns a = some types.1) (htype' : decimalField columns b = some types.2)
    (hfirst : columns.find? (·.name == a) = some first) (hsecond : columns.find? (·.name == b) = some second)
    (hdirect : first.DirectI64) (hdirect' : second.DirectI64) :
    directPayload (oneRowChunk columns a b) [.select 1] collectRows [] =
      .ok (some ⟨1,1⟩,[[.decimal128 types.1 (some (leafValue first)),.decimal128 types.2 (some (leafValue second))]]) := by
  obtain ⟨i,hi,hcolumn,hpages⟩ := exists_leafIndex hfirst
  obtain ⟨j,hj,hcolumn',hpages'⟩ := exists_leafIndex hsecond
  have hcolumns : lateMaterializedDecimalI64PayloadColumns columns (.columns [a,b]) = some ((a,b),types) := by
    simp only [lateMaterializedDecimalI64PayloadColumns,htype,htype',Option.bind_some,Option.map_some]
  have hindices : parquetColumnIndicesByName columns [a,b] = some [i,j] :=
    mapM_eq_some_iff.mpr (.cons hi (.cons hj .nil))
  have hruns : lateMaterializedSelectorRunsByRowGroup (oneRowChunk columns a b).file [0] [.select 1] =
      some [[(0,1)]] := congrArg some split_oneRow
  have hgroup : readSelectedRowGroup (oneRowChunk columns a b).file i j {} 0 [(0,1)] =
      .ok (some ⟨[leafValue first],[leafValue second],1⟩) := by
    show (readSelectedColumn (oneRowChunk columns a b).file (oneRowGroup columns) i [(0,1)] []).bind _ = _
    rw [readSelectedColumn_oneRow hcolumn hpages hdirect]
    rw [readSelectedColumn_oneRow hcolumn' hpages' hdirect']
    rfl
  have hgroups : readSelectedRowGroups (oneRowChunk columns a b).file i j [(0,[(0,1)])] {} =
      .ok (some ⟨[leafValue first],[leafValue second],1⟩) := by
    rw [readSelectedRowGroups,hgroup]
    rfl
  unfold directPayload
  rw [if_neg (by rintro (h | h); exacts [h rfl,Bool.false_ne_true h])]
  rw [show lateMaterializedDecimalI64PayloadColumns (oneRowChunk columns a b).file.columns
      (oneRowChunk columns a b).payloadProjection = some ((a,b),types) from hcolumns,
    show lateMaterializedSelectorRunsByRowGroup (oneRowChunk columns a b).file (oneRowChunk columns a b).rowGroups
      [.select 1] = some [[(0,1)]] from hruns]
  show scanParquetI64I64SelectedRawColumns (oneRowChunk columns a b).file [0] (a,b) types [[(0,1)]]
    (consumeDirect collectRows) [] = _
  unfold scanParquetI64I64SelectedRawColumns
  rw [show parquetColumnIndicesByName (oneRowChunk columns a b).file.columns [a,b] = some [i,j] from hindices]
  dsimp only
  rw [if_neg (by decide),List.zip_cons_cons,List.zip_nil_right,hgroups]
  rfl

theorem chunkView_oneRow {row : List (Cell Unit)}
    (h : directPayload (oneRowChunk columns a b) [.select 1] collectRows [] = .ok (some ⟨1,1⟩,[row])) :
    lateMaterializedChunkView (oneRowChunk columns a b) selectOne collectRows returnRows [] =
      .ok (some ([row],⟨1,1,1,1,1,1⟩)) := by
  show (directPayload (oneRowChunk columns a b) [.select 1] collectRows []).bind _ = _
  rw [h]
  rfl

theorem consumesSelected_oneRow (types : (ℕ × ℤ) × (ℕ × ℤ)) (htype : decimalField columns a = some types.1)
    (htype' : decimalField columns b = some types.2) {output : List (List (Cell Unit))}
    {metrics : LateMaterializedMetrics}
    (h : ConsumesSelected (oneRowChunk columns a b) [oneRowGroup columns] selectOne (fun rows row => rows ++ [row])
      returnRows [] output metrics) :
    output = [[.decimal128 types.1 (some 0),.decimal128 types.2 (some 0)]] := by
  obtain ⟨batches,builder,flags,s,n,rows,hpredicate,hpass,hholds,-,hrows,hfinish,-⟩ := h
  have hbatches : [[()]] = batches := List.map_injective_iff.mpr (fun _ _ => Except.ok.inj) (Except.ok.inj hpredicate)
  subst hbatches
  cases hpass
  have hflags : flags = [true] := hholds.expand.symm
  subst hflags
  have hpayload : (oneRowChunk columns a b).payload [oneRowGroup columns] =
      [[.decimal128 types.1 (some 0),.decimal128 types.2 (some 0)]] := by
    show [[(oneRowGroup columns).cell a 0,(oneRowGroup columns).cell b 0]] = _
    simp only [oneRowGroup,htype,htype']
  rw [hpayload] at hrows
  cases hrows
  exact (Option.some.inj (Except.ok.inj hfinish)).symm

theorem path_of_leafValue {name : String} (h : columns.find? (·.name == name) = some column)
    (hzero : leafValue column = 0) : column.path = [name] := by
  have hname : column.name = name := by simpa using List.find?_some h
  have hlength : column.path.length = 1 := by
    by_contra hne
    rw [leafValue,if_neg hne] at hzero
    cases hzero
  obtain ⟨field,hfield⟩ := List.length_eq_one_iff.mp hlength
  rw [ColumnDesc.name,hfield] at hname
  rw [hfield]
  exact congrArg (fun name => [name]) hname

end OneRow

/-- Two passes hand over exactly the selected payload for every file of a schema when the direct
reader, where it may be used, finds the columns themselves, and in no other case. -/
theorem materialisesSelected_iff (columns : List ColumnDesc) (enabled : Bool) (dictionaryColumns : List String)
    (projection : Projection) :
    MaterialisesSelected columns enabled dictionaryColumns projection ↔
      DirectPayloadOwn columns enabled dictionaryColumns projection := by
  constructor
  · rintro h henabled hdictionary a b hprojection htype htype' first second hfirst hsecond hdirect hdirect'
    subst henabled hdictionary hprojection
    obtain ⟨firstType,htype⟩ := Option.isSome_iff_exists.mp htype
    obtain ⟨secondType,htype'⟩ := Option.isSome_iff_exists.mp htype'
    have hview := chunkView_oneRow
      (directPayload_oneRow (firstType,secondType) htype htype' hfirst hsecond hdirect hdirect')
    have hconsumes := (h Unit Unit _ _ (oneRowChunk columns a b) [oneRowGroup columns] [()] ⟨16,8⟩ selectOne collectRows
      (fun rows row => rows ++ [row]) returnRows [] rfl rfl rfl rfl (oneRowChunk_reads columns a b) selectOne_reports
      collectRows_folds).1 _ _ hview
    have hsame := consumesSelected_oneRow (firstType,secondType) htype htype' hconsumes
    simp only [List.cons.injEq,Cell.decimal128.injEq,Option.some.injEq,true_and,and_true] at hsame
    exact ⟨path_of_leafValue hfirst hsame.1,path_of_leafValue hsecond hsame.2⟩
  · rintro hown π γ σ ω c groups predicateRows tuning buildSelection consumePayload step finish state
      rfl rfl rfl rfl hreads hreports hfolds
    exact ⟨fun output metrics => chunkView_consumesSelected hreads hreports hfolds hown,
      fun selectors s s' => directPayload_declines⟩

/-- A struct with a field of 64-bit integers called `price`, before the columns `price` and `discount`. -/
def shadowedColumns : List ColumnDesc :=
  [{ path := ["quote","price"], physicalInt64 := true, maxRepLevel := 0, maxDefLevel := 0, decimal128 := none },
    { path := ["price"], physicalInt64 := true, maxRepLevel := 0, maxDefLevel := 0, decimal128 := some (15,2) },
    { path := ["discount"], physicalInt64 := true, maxRepLevel := 0, maxDefLevel := 0, decimal128 := some (15,2) }]

/-- The prices come from inside the struct. -/
theorem shadowed_payload_not_selected :
    ¬MaterialisesSelected shadowedColumns true [] (.columns ["price","discount"]) := by
  intro h
  have hpayload := directPayload_oneRow ((15,2),(15,2)) (rfl : decimalField shadowedColumns "price" = _)
    (rfl : decimalField shadowedColumns "discount" = _) rfl rfl ⟨rfl,rfl,by decide⟩ ⟨rfl,rfl,by decide⟩
  have hview := chunkView_oneRow hpayload
  have hconsumes := (h Unit Unit _ _ (oneRowChunk shadowedColumns "price" "discount") [oneRowGroup shadowedColumns]
    [()] ⟨16,8⟩ selectOne collectRows (fun rows row => rows ++ [row]) returnRows [] rfl rfl rfl rfl
    (oneRowChunk_reads _ _ _) selectOne_reports collectRows_folds).1 _ _ hview
  have hsame := consumesSelected_oneRow ((15,2),(15,2)) rfl rfl hconsumes
  simp [leafValue] at hsame

end Dodam.Engine
