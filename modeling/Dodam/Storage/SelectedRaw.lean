import Dodam.Cost.LateCoalesce
import Dodam.Storage.SelectedPages
import Dodam.Storage.Table

/-! # Two decimal columns read directly

The payload of a late materialised chunk is read by rows, or two decimal columns of it directly
from the pages of 64-bit integers.
-/
namespace Dodam.Storage
open Cost Execution

/-- A cell of a row; a decimal has a precision, a scale and an unscaled value. -/
inductive Cell (γ : Type*)
  | decimal128 (type : ℕ × ℤ) (value : Option ℤ)
  | other (value : γ)

/-- A row group: the pages of its leaf columns and the cells of its columns. -/
structure RowGroup (γ : Type*) where
  rowCount : ℕ
  pages : List (List Page)
  cell : String → ℕ → Cell γ

structure ColumnFile (γ : Type*) where
  columns : List ColumnDesc
  rowGroups : List (RowGroup γ)

def ColumnDesc.name (column : ColumnDesc) : String := column.path.getLast?.getD ""

def decimalField (columns : List ColumnDesc) (name : String) : Option (ℕ × ℤ) :=
  (columns.find? (·.path == [name])).bind (·.decimal128)

def parquetColumnIndicesByName (columns : List ColumnDesc) (names : List String) : Option (List ℕ) :=
  names.mapM fun name => columns.findIdx? (·.name == name)

def Projection.names (columns : List ColumnDesc) : Projection → List String
  | .all => (columns.map fun column => column.path.headD "").dedup
  | .columns names => names

def rowPositions {γ : Type*} (groups : List (RowGroup γ)) : List (RowGroup γ × ℕ) :=
  groups.flatMap fun g => (List.range g.rowCount).map fun i => (g,i)

def payloadRows {γ : Type*} (names : List String) (groups : List (RowGroup γ)) : List (List (Cell γ)) :=
  (rowPositions groups).map fun r => names.map fun name => r.1.cell name r.2

/-- The values of a `RawColumnView::Decimal128I64`, with their type. -/
structure RawColumnView where
  values : List ℤ
  type : ℕ × ℤ

/-- What a consumer is given: a record batch, or two raw columns. -/
inductive BatchView (γ : Type*)
  | recordBatch (rows : List (List (Cell γ)))
  | rawColumns (first second : RawColumnView)

def RawColumnView.cells {γ : Type*} (column : RawColumnView) : List (Cell γ) :=
  column.values.map fun value => .decimal128 column.type (some value)

def BatchView.rows {γ : Type*} : BatchView γ → List (List (Cell γ))
  | recordBatch rows => rows
  | rawColumns first second => List.zipWith (fun x y => [x,y]) first.cells second.cells

structure DirectScanMetrics where
  batches : ℕ
  selectedRows : ℕ

/-- The values of both columns, and the rows selected. -/
structure SelectedScan where
  firstValues : List ℤ := []
  secondValues : List ℤ := []
  selectedRows : ℕ := 0

section Scan
variable {γ σ : Type*} (file : ColumnFile γ)

def readSelectedColumn (g : RowGroup γ) (index : ℕ) (runs : List (ℕ × ℕ)) (output : List ℤ) :
    Result (Option (List ℤ)) :=
  match file.columns[index]?, g.pages[index]? with
  | some column, some pages => readPlainI64SelectedRuns column pages g.rowCount runs output
  | _, _ => .error (.err .arrow)

def runRows (runs : List (ℕ × ℕ)) : ℕ := (runs.map Prod.snd).foldl saturatingAdd 0

def readSelectedRowGroup (first second : ℕ) (s : SelectedScan) (rowGroup : ℕ) (runs : List (ℕ × ℕ)) :
    Result (Option SelectedScan) :=
  match file.rowGroups[rowGroup]? with
  | none => .error (.err .arrow)
  | some g =>
    let selectedRows := saturatingAdd s.selectedRows (runRows runs)
    if runRows runs = 0 then .ok (some { s with selectedRows := selectedRows })
    else
      (readSelectedColumn file g first runs s.firstValues).bind fun
        | none => .ok none
        | some firstValues => (readSelectedColumn file g second runs s.secondValues).bind fun
          | none => .ok none
          | some secondValues =>
            if firstValues.length - s.firstValues.length ≠ runRows runs ∨
                secondValues.length - s.secondValues.length ≠ runRows runs then .ok none
            else .ok (some ⟨firstValues,secondValues,selectedRows⟩)

def readSelectedRowGroups (first second : ℕ) : List (ℕ × List (ℕ × ℕ)) → SelectedScan → Result (Option SelectedScan)
  | [], s => .ok (some s)
  | (rowGroup,runs) :: rest, s => (readSelectedRowGroup file first second s rowGroup runs).bind fun
    | none => .ok none
    | some s => readSelectedRowGroups first second rest s

/-- The metrics of the scan, or none when it declines, and the state of the consumer. -/
def scanParquetI64I64SelectedRawColumns (rowGroups : List ℕ) (columns : String × String)
    (columnTypes : (ℕ × ℤ) × (ℕ × ℤ)) (runs : List (List (ℕ × ℕ))) (consume : BatchView γ → σ → Result σ)
    (state : σ) : Result (Option DirectScanMetrics × σ) :=
  match parquetColumnIndicesByName file.columns [columns.1,columns.2] with
  | none => .ok (none,state)
  | some [first,second] =>
    if runs.length ≠ rowGroups.length then .ok (none,state)
    else (readSelectedRowGroups file first second (rowGroups.zip runs) {}).bind fun
      | none => .ok (none,state)
      | some s =>
        if s.firstValues = [] then .ok (some ⟨0,s.selectedRows⟩,state)
        else if s.firstValues.length ≠ s.selectedRows ∨ s.secondValues.length ≠ s.selectedRows then
          .ok (none,state)
        else
          (consume (.rawColumns ⟨s.firstValues,columnTypes.1⟩ ⟨s.secondValues,columnTypes.2⟩) state).map
            fun state => (some ⟨1,s.selectedRows⟩,state)
  | some _ => unsupportedSql "selected raw column shape mismatch"

end Scan

end Dodam.Storage

/-! ## Directly read columns hold the cells of the selected rows

The direct reader goes through the row groups with the runs of each. After some
of them the values are the cells of the selected rows so far, provided that the
leaf it reads is the column itself.
-/
namespace Dodam.Storage
open Cost Execution Foundation

variable {γ : Type*}

/-- The pages of the leaves hold rows; those of a decimal column are its cells. -/
def RowGroup.Holds (columns : List ColumnDesc) (g : RowGroup γ) : Prop :=
  ∀ (index : ℕ) column pages, columns[index]? = some column → g.pages[index]? = some pages → column.DirectI64 →
    ∃ values : List (Option ℤ), values.length = g.rowCount ∧ ChunkHolds column.maxDefLevel none pages values ∧
      ∀ name type, column.path = [name] → decimalField columns name = some type →
        ∀ (i : ℕ) value, values[i]? = some value → g.cell name i = .decimal128 type value

/-- The values are the cells of the rows, if the leaf is a decimal column. -/
def ColumnDesc.Decodes (columns : List ColumnDesc) (column : ColumnDesc) (values : List ℤ) (rows : List (RowGroup γ × ℕ)) : Prop :=
  ∀ name type, column.path = [name] → decimalField columns name = some type →
    values.map (fun value => Cell.decimal128 type (some value)) = rows.map fun r => r.1.cell name r.2

theorem ColumnDesc.Decodes.append {columns : List ColumnDesc} {column : ColumnDesc} {values values' : List ℤ} {rows rows' : List (RowGroup γ × ℕ)}
    (h : column.Decodes columns values rows) (h' : column.Decodes columns values' rows') :
    column.Decodes columns (values ++ values') (rows ++ rows') := by
  intro name type hpath htype
  rw [List.map_append,List.map_append,h name type hpath htype,h' name type hpath htype]

theorem rowPositions_cons (g : RowGroup γ) (groups : List (RowGroup γ)) :
    rowPositions (g :: groups) = (List.range g.rowCount).map (fun i => (g,i)) ++ rowPositions groups :=
  List.flatMap_cons

theorem length_rowPositions (groups : List (RowGroup γ)) :
    (rowPositions groups).length = (groups.map RowGroup.rowCount).sum := by
  induction groups with
  | nil => rfl
  | cons g groups ih =>
    rw [rowPositions_cons,List.length_append,List.length_map,List.length_range,ih,List.map_cons,List.sum_cons]

theorem saturatingAdd_of_lt {a b : ℕ} (h : a + b < 2 ^ 64) : saturatingAdd a b = a + b :=
  min_eq_left (Nat.le_sub_one_of_lt h)

theorem foldl_saturatingAdd {l : List ℕ} {n : ℕ} (h : n + l.sum < 2 ^ 64) : l.foldl saturatingAdd n = n + l.sum := by
  induction l generalizing n with
  | nil => rfl
  | cons a l ih =>
    rw [List.sum_cons] at h ⊢
    have hadd : saturatingAdd n a = n + a := saturatingAdd_of_lt (by omega)
    rw [List.foldl_cons,hadd,ih (by omega),Nat.add_assoc]

section RowGroup
variable {file : ColumnFile γ} {g : RowGroup γ} {q : ℕ → Prop} [DecidablePred q] {runs : List (ℕ × ℕ)} {start : ℕ}

theorem runRows_eq {α : Type*} (hruns : Marks (fun i => i < g.rowCount ∧ q (start + i)) runs)
    (hfit : g.rowCount < 2 ^ 64) {rows : List α} (hrows : rows.length = g.rowCount) :
    runRows runs = (selectAt q start rows).length := by
  have hlen := length_selectAt_of_marks hruns (l := rows) fun i hi => hrows ▸ hi.1
  have hsame : selectAt (fun i => i < g.rowCount ∧ q (start + i)) 0 rows = selectAt q start rows := by
    rw [← Nat.add_zero start,← selectAt_add start 0 rows]
    exact selectAt_congr fun j _ hj => and_iff_right (by omega)
  have hle : (selectAt q start rows).length ≤ rows.length := (selectAt_sublist start rows).length_le
  rw [hsame] at hlen
  rw [runRows,foldl_saturatingAdd (by omega),Nat.zero_add,hlen]

theorem readSelectedColumn_decodes {index : ℕ} {column : ColumnDesc} {output output' : List ℤ}
    (hcolumn : file.columns[index]? = some column) (hg : g.Holds file.columns)
    (hruns : Marks (fun i => i < g.rowCount ∧ q (start + i)) runs) (hfit : g.rowCount < 2 ^ 64)
    (hlen : output'.length - output.length = runRows runs)
    (h : readSelectedColumn file g index runs output = .ok (some output')) :
    column.DirectI64 ∧ ∃ values, output' = output ++ values ∧
      column.Decodes file.columns values (selectAt q start ((List.range g.rowCount).map fun i => (g,i))) := by
  unfold readSelectedColumn at h
  rw [hcolumn] at h
  cases hpages : g.pages[index]? with
  | none =>
    rw [hpages] at h
    cases h
  | some pages =>
    rw [hpages] at h
    have hdirect := readPlainI64SelectedRuns_direct h
    obtain ⟨rows,hrows,hchunk,hcells⟩ := hg index column pages hcolumn hpages hdirect
    obtain ⟨values,rfl,hcovers⟩ := readPlainI64SelectedRuns_covers hruns hchunk h
    have hselect : selectAt (fun i => i < g.rowCount ∧ q (start + i)) 0 rows = selectAt q start rows := by
      rw [← Nat.add_zero start,← selectAt_add start 0 rows]
      exact selectAt_congr fun j _ hj => and_iff_right (by omega)
    rw [hselect] at hcovers
    rw [List.length_append,Nat.add_sub_cancel_left,runRows_eq hruns hfit hrows] at hlen
    refine ⟨hdirect,values,rfl,fun name type hpath htype => ?_⟩
    have hcell : rows.map (Cell.decimal128 (γ := γ) type) =
        ((List.range g.rowCount).map fun i => (g,i)).map fun r => r.1.cell name r.2 := by
      refine List.ext_getElem (by simp [hrows]) fun i hi _ => ?_
      rw [List.length_map] at hi
      simp only [List.getElem_map,List.getElem_range]
      exact (hcells name type hpath htype i _ (List.getElem?_eq_getElem hi)).symm
    rw [← selectAt_map,← hcell,selectAt_map,← hcovers.eq hlen,List.map_map]
    rfl
end RowGroup

/-- The runs of row groups mark the selected rows; the first row has position `start`. -/
inductive GroupRuns (q : ℕ → Prop) : ℕ → List (RowGroup γ) → List (List (ℕ × ℕ)) → Prop
  | nil {start : ℕ} : GroupRuns q start [] []
  | cons {start : ℕ} {g : RowGroup γ} {groups : List (RowGroup γ)} {runs : List (ℕ × ℕ)} {rest : List (List (ℕ × ℕ))}
      (hruns : Marks (fun i => i < g.rowCount ∧ q (start + i)) runs) (hrest : GroupRuns q (start + g.rowCount) groups rest) :
      GroupRuns q start (g :: groups) (runs :: rest)

/-- The scan after some rows, with the leaves it reads. -/
structure SelectedScan.Inv (q : ℕ → Prop) [DecidablePred q] (columns : List ColumnDesc)
    (first second : ColumnDesc) (seen : List (RowGroup γ × ℕ))
    (s : SelectedScan) : Prop where
  selectedRows : s.selectedRows = (selectAt q 0 seen).length
  direct : selectAt q 0 seen ≠ [] → first.DirectI64 ∧ second.DirectI64
  firstValues : first.Decodes columns s.firstValues (selectAt q 0 seen)
  secondValues : second.Decodes columns s.secondValues (selectAt q 0 seen)

section Groups
variable {file : ColumnFile γ} {q : ℕ → Prop} [DecidablePred q] {first second : ℕ}
  {firstColumn secondColumn : ColumnDesc} {seen : List (RowGroup γ × ℕ)} {s s' : SelectedScan}

theorem scanInv_start :
    SelectedScan.Inv q file.columns firstColumn secondColumn ([] : List (RowGroup γ × ℕ)) {} :=
  ⟨rfl,fun h => absurd rfl h,fun _ _ _ _ => rfl,fun _ _ _ _ => rfl⟩

theorem SelectedScan.Inv.rowGroup {rowGroup : ℕ} {g : RowGroup γ} {runs : List (ℕ × ℕ)}
    (hfirst : file.columns[first]? = some firstColumn) (hsecond : file.columns[second]? = some secondColumn)
    (h : s.Inv q file.columns firstColumn secondColumn seen) (hgroup : file.rowGroups[rowGroup]? = some g) (hg : g.Holds file.columns)
    (hfit : seen.length + g.rowCount < 2 ^ 64) (hruns : Marks (fun i => i < g.rowCount ∧ q (seen.length + i)) runs)
    (hread : readSelectedRowGroup file first second s rowGroup runs = .ok (some s')) :
    s'.Inv q file.columns firstColumn secondColumn (seen ++ (List.range g.rowCount).map fun i => (g,i)) := by
  have hrows : ((List.range g.rowCount).map fun i => (g,i)).length = g.rowCount := by
    rw [List.length_map,List.length_range]
  have hcount := runRows_eq hruns (by omega) hrows
  have hle : (selectAt q 0 seen).length ≤ seen.length := (selectAt_sublist 0 seen).length_le
  have hmore : (selectAt q seen.length ((List.range g.rowCount).map fun i => (g,i))).length ≤ g.rowCount := by
    refine (selectAt_sublist _ _).length_le.trans_eq hrows
  have hselect : selectAt q 0 (seen ++ (List.range g.rowCount).map fun i => (g,i)) =
      selectAt q 0 seen ++ selectAt q seen.length ((List.range g.rowCount).map fun i => (g,i)) := by
    rw [selectAt_append,Nat.zero_add]
  have hselected : saturatingAdd s.selectedRows (runRows runs) =
      (selectAt q 0 (seen ++ (List.range g.rowCount).map fun i => (g,i))).length := by
    rw [hselect,List.length_append,hcount,h.selectedRows]
    exact saturatingAdd_of_lt (by omega)
  unfold readSelectedRowGroup at hread
  rw [hgroup] at hread
  split_ifs at hread with hzero
  · cases hread
    have hnone : selectAt q seen.length ((List.range g.rowCount).map fun i => (g,i)) = [] :=
      List.eq_nil_of_length_eq_zero (hcount.symm.trans hzero)
    rw [hnone,List.append_nil] at hselect
    refine ⟨hselected,?_,?_,?_⟩
    · rw [hselect]
      exact h.direct
    · rw [hselect]
      exact h.firstValues
    · rw [hselect]
      exact h.secondValues
  · obtain ⟨values,hvalues,hread⟩ := except_bind_eq_ok.mp hread
    cases values with
    | none => cases hread
    | some firstValues =>
      obtain ⟨values,hvalues',hread⟩ := except_bind_eq_ok.mp hread
      cases values with
      | none => cases hread
      | some secondValues =>
        dsimp only at hread
        split_ifs at hread with hlengths
        · cases hread
        · cases hread
          obtain ⟨hlen,hlen'⟩ := not_or.mp hlengths
          obtain ⟨hdirect,more,rfl,hdecodes⟩ :=
            readSelectedColumn_decodes hfirst hg hruns (by omega) (not_not.mp hlen) hvalues
          obtain ⟨hdirect',more',rfl,hdecodes'⟩ :=
            readSelectedColumn_decodes hsecond hg hruns (by omega) (not_not.mp hlen') hvalues'
          refine ⟨hselected,fun _ => ⟨hdirect,hdirect'⟩,?_,?_⟩
          · rw [hselect]
            exact h.firstValues.append hdecodes
          · rw [hselect]
            exact h.secondValues.append hdecodes'

theorem readSelectedRowGroups_inv {rowGroups : List ℕ} {groups : List (RowGroup γ)} {runs : List (List (ℕ × ℕ))}
    (hfirst : file.columns[first]? = some firstColumn) (hsecond : file.columns[second]? = some secondColumn)
    (hgroups : List.Forall₂ (fun i g => file.rowGroups[i]? = some g) rowGroups groups)
    (hholds : ∀ g ∈ groups, g.Holds file.columns) (hruns : GroupRuns q seen.length groups runs)
    (hfit : (seen ++ rowPositions groups).length < 2 ^ 64) (h : s.Inv q file.columns firstColumn secondColumn seen)
    (hread : readSelectedRowGroups file first second (rowGroups.zip runs) s = .ok (some s')) :
    s'.Inv q file.columns firstColumn secondColumn (seen ++ rowPositions groups) := by
  induction hgroups generalizing seen s runs with
  | nil =>
    cases hread
    exact (List.append_nil seen).symm ▸ h
  | @cons rowGroup g rowGroups groups hgroup _ ih =>
    cases hruns with
    | @cons _ _ _ runs rest hruns hrest =>
      rw [List.zip_cons_cons,readSelectedRowGroups] at hread
      obtain ⟨next,hnext,hread⟩ := except_bind_eq_ok.mp hread
      rw [rowPositions_cons,← List.append_assoc] at hfit ⊢
      have hlen : (seen ++ (List.range g.rowCount).map fun i => (g,i)).length = seen.length + g.rowCount := by
        rw [List.length_append,List.length_map,List.length_range]
      cases next with
      | none => cases hread
      | some next =>
        have hone := h.rowGroup hfirst hsecond hgroup (hholds g List.mem_cons_self) (by
          rw [List.length_append] at hfit
          omega) hruns hnext
        exact ih (fun g hg => hholds g (List.mem_cons_of_mem _ hg)) (hlen ▸ hrest) hfit hone hread

end Groups

section Scan
variable {file : ColumnFile γ} {σ : Type*}
variable {a b : String} {types : (ℕ × ℤ) × (ℕ × ℤ)} {consume : BatchView γ → σ → Result σ}

theorem parquetColumnIndicesByName_eq_some {columns : List ColumnDesc} {indices : List ℕ}
    (h : parquetColumnIndicesByName columns [a,b] = some indices) :
    ∃ first second firstColumn secondColumn, indices = [first,second] ∧
      (columns[first]? = some firstColumn ∧ columns.find? (·.name == a) = some firstColumn) ∧
      columns[second]? = some secondColumn ∧ columns.find? (·.name == b) = some secondColumn := by
  have hall := mapM_eq_some_iff.mp h
  obtain ⟨first,rest,hfirst,hrest,rfl⟩ := List.forall₂_cons_left_iff.mp hall
  obtain ⟨second,rest,hsecond,hnil,rfl⟩ := List.forall₂_cons_left_iff.mp hrest
  cases hnil
  have hfound : ∀ name index, columns.findIdx? (·.name == name) = some index →
      ∃ column, columns[index]? = some column ∧ columns.find? (·.name == name) = some column := by
    intro name index hindex
    obtain ⟨hlt,-⟩ := List.findIdx?_eq_some_iff_getElem.mp hindex
    refine ⟨columns[index],List.getElem?_eq_getElem hlt,?_⟩
    rw [List.find?_eq_bind_findIdx?_getElem?,hindex]
    exact List.getElem?_eq_getElem hlt
  obtain ⟨firstColumn,hfirst⟩ := hfound a first hfirst
  obtain ⟨secondColumn,hsecond⟩ := hfound b second hsecond
  exact ⟨first,second,firstColumn,secondColumn,rfl,hfirst,hsecond⟩

theorem rows_rawColumns {first second : RawColumnView} {rows : List (RowGroup γ × ℕ)}
    (hfirst : first.cells = rows.map fun r => r.1.cell a r.2)
    (hsecond : second.cells = rows.map fun r => r.1.cell b r.2) :
    (BatchView.rawColumns first second).rows = rows.map fun r => [a,b].map fun name => r.1.cell name r.2 := by
  rw [BatchView.rows,hfirst,hsecond,List.zipWith_map,List.zipWith_self]
  rfl

/-- A scan that declines leaves the state to the next reader as it found it. -/
theorem scan_declines {rowGroups : List ℕ} {columns : String × String}
    {runs : List (List (ℕ × ℕ))} {state state' : σ}
    (h : scanParquetI64I64SelectedRawColumns file rowGroups columns types runs consume state = .ok (none,state')) :
    state' = state := by
  unfold scanParquetI64I64SelectedRawColumns at h
  cases hindices : parquetColumnIndicesByName file.columns [columns.1,columns.2] with
  | none =>
    rw [hindices] at h
    cases h
    rfl
  | some indices =>
    obtain ⟨first,second,_,_,rfl,-,-⟩ := parquetColumnIndicesByName_eq_some hindices
    rw [hindices] at h
    split_ifs at h with hlength
    · cases h
      rfl
    · obtain ⟨scan,-,h⟩ := bind_eq_ok_iff.mp h
      cases scan with
      | none =>
        cases h
        rfl
      | some scan =>
        dsimp only at h
        split_ifs at h
        · cases h
        · cases h
          rfl
        · obtain ⟨_,-,h⟩ := map_eq_ok_iff.mp h
          cases h

/-- A scan that reads selected rows hands their cells over once, if the leaves are the columns. -/
theorem scan_consumes {q : ℕ → Prop} [DecidablePred q] {rowGroups : List ℕ} {groups : List (RowGroup γ)} {runs : List (List (ℕ × ℕ))} {state state' : σ}
    {metrics : DirectScanMetrics}
    (hgroups : List.Forall₂ (fun i g => file.rowGroups[i]? = some g) rowGroups groups)
    (hholds : ∀ g ∈ groups, g.Holds file.columns) (hruns : GroupRuns q 0 groups runs)
    (hfit : (rowPositions groups).length < 2 ^ 64) (htype : decimalField file.columns a = some types.1)
    (htype' : decimalField file.columns b = some types.2) (hsome : selectAt q 0 (rowPositions groups) ≠ [])
    (h : scanParquetI64I64SelectedRawColumns file rowGroups (a,b) types runs consume state = .ok (some metrics,state')) :
    metrics.selectedRows = (selectAt q 0 (rowPositions groups)).length ∧
      ∃ firstColumn secondColumn, (file.columns.find? (·.name == a) = some firstColumn ∧ firstColumn.DirectI64) ∧
        (file.columns.find? (·.name == b) = some secondColumn ∧ secondColumn.DirectI64) ∧
        (firstColumn.path = [a] → secondColumn.path = [b] →
          ∃ view, view.rows = selectAt q 0 (payloadRows [a,b] groups) ∧ consume view state = .ok state') := by
  unfold scanParquetI64I64SelectedRawColumns at h
  cases hindices : parquetColumnIndicesByName file.columns [a,b] with
  | none =>
    rw [hindices] at h
    cases h
  | some indices =>
    obtain ⟨first,second,firstColumn,secondColumn,rfl,hfirst,hsecond⟩ := parquetColumnIndicesByName_eq_some hindices
    rw [hindices] at h
    split_ifs at h with hlength
    · cases h
    · obtain ⟨scan,hscan,h⟩ := bind_eq_ok_iff.mp h
      cases scan with
      | none => cases h
      | some scan =>
        have hinv := readSelectedRowGroups_inv hfirst.1 hsecond.1 hgroups hholds hruns hfit scanInv_start hscan
        rw [List.nil_append] at hinv
        obtain ⟨hdirect,hdirect'⟩ := hinv.direct hsome
        dsimp only at h
        split_ifs at h with hempty hlengths
        · cases h
          refine ⟨hinv.selectedRows,firstColumn,secondColumn,⟨hfirst.2,hdirect⟩,⟨hsecond.2,hdirect'⟩,?_⟩
          intro hpath _
          -- a column without values has no selected row
          have hcells := hinv.firstValues a types.1 hpath htype
          rw [hempty] at hcells
          exact absurd (List.map_eq_nil_iff.mp hcells.symm) hsome
        · cases h
        · obtain ⟨state₁,hconsume,h⟩ := map_eq_ok_iff.mp h
          cases h
          refine ⟨hinv.selectedRows,firstColumn,secondColumn,⟨hfirst.2,hdirect⟩,⟨hsecond.2,hdirect'⟩,?_⟩
          intro hpath hpath'
          refine ⟨_,?_,hconsume⟩
          rw [payloadRows,selectAt_map]
          exact rows_rawColumns (hinv.firstValues a types.1 hpath htype) (hinv.secondValues b types.2 hpath' htype')

end Scan

end Dodam.Storage
