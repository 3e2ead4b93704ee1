import Dodam.Plan.LogicalRewrite
import Dodam.Storage.StatisticsColumn

/-! # Lowering of logical plans

A scan becomes operators in a fixed order: the file is read with the columns of the output, of
the filter and of the sort, then filtered, made distinct or sorted, projected and cut.
-/
namespace Dodam.Plan
open Foundation Execution Storage Optimizer Sql

section Physical
variable {σ : Type*}

/-- The operators that the plans are lowered to. -/
inductive PhysicalExecution (σ : Type*)
  | scan (source : σ) (projection : Projection) (pushdownPredicates : List Expr)
  | filter (input : PhysicalExecution σ) (filter : Expr)
  | projection (input : PhysicalExecution σ) (projection : Projection)
  | sort (input : PhysicalExecution σ) (orderBy : SortKey) (limit : Option ℕ)
  | limit (input : PhysicalExecution σ) (limit : ℕ)
  | distinct (input : PhysicalExecution σ)
  | gather (input : PhysicalExecution σ)

def collectConjuncts : Expr → List Expr
  | .and left right => collectConjuncts left ++ collectConjuncts right
  | .boolean _ | .not _ | .inList .. | .isNull .. => []
  | expr => [expr]

def supportsRowGroupPruning : Expr → Bool
  | .comparison comparison => comparison.op ≠ .notEq
  | .and left right | .or left right => supportsRowGroupPruning left && supportsRowGroupPruning right
  | .like like =>
    !like.negated && !like.caseInsensitive && (likePrefixPruningRange like.pattern.toList like.escape).isSome
  | _ => false

def pushdown (filter : Option Expr) : List Expr :=
  filter.elim [] fun filter => (collectConjuncts filter).filter (supportsRowGroupPruning ·)

def logicalScanProjection (scan : LogicalScan σ) : Projection :=
  match scan.projection with
  | .all => .all
  | .columns outputColumns =>
    .columns ((if scan.distinct then [] else scan.orderBy.elim [] sortColumns).foldl addColumnOnce
      ((scan.filter.elim [] exprReferencedColumns).foldl addColumnOnce outputColumns))

/-- Whether the rows of an operator are in one partition. -/
def PhysicalExecution.isSingle : PhysicalExecution σ → Bool
  | .scan .. | .sort .. => false
  | .filter input _ | .projection input _ => input.isSingle
  | .limit .. | .distinct _ | .gather _ => true

variable (insertExchanges : Bool)

def ensureSingle (input : PhysicalExecution σ) : PhysicalExecution σ :=
  if !insertExchanges || input.isSingle then input else .gather input

def planScan (scan : LogicalScan σ) : PhysicalExecution σ :=
  have scanProjection := logicalScanProjection scan
  have needsOutputProjection := decide (scanProjection ≠ scan.projection)
  have current := PhysicalExecution.scan scan.source scanProjection (pushdown scan.filter)
  have current := scan.filter.elim current current.filter
  have current :=
    if scan.distinct then
      have current := if needsOutputProjection then current.projection scan.projection else current
      .distinct (ensureSingle insertExchanges current)
    else current
  have current := scan.orderBy.elim current fun orderBy => .sort (ensureSingle insertExchanges current) orderBy scan.limit
  have current := if !scan.distinct && needsOutputProjection then current.projection scan.projection else current
  scan.limit.elim current fun limit => .limit (ensureSingle insertExchanges current) limit

def planNode : LogicalPlan σ → PhysicalExecution σ
  | .tableScan scan => planScan insertExchanges scan
  | .projection input projection => .projection (planNode input) projection
  | .filter input filter => .filter (planNode input) filter
  | .sort input orderBy limit => .sort (ensureSingle insertExchanges (planNode input)) orderBy limit
  | .limit input limit => .limit (ensureSingle insertExchanges (planNode input)) limit
  | .distinct input => .distinct (ensureSingle insertExchanges (planNode input))

def plan (logical : LogicalPlan σ) : PhysicalExecution σ := planNode insertExchanges (optimize logical).plan

end Physical

section Execution
variable {floats : Floats} {ρ : Type*} (M : Meaning floats ρ) [DecidableEq M.Val]
variable (order : ValueOrder M.Val) (sorting : Arrangement) {σ : Type*} (store : σ → Rows M.Val)

open Relation (Comp)

/-- The results of the operators, with the way a scan reads the columns of a projection. -/
def Executes (readColumns : Projection → Rows M.Val → Rows M.Val → Prop) : PhysicalExecution σ → Rows M.Val → Prop
  | .scan source projection predicates,result => Comp (Reads M predicates) (readColumns projection) (store source) result
  | .projection input projection,result => ∃ rows, Executes readColumns input rows ∧ Projects projection rows result
  | .filter input filter,result => ∃ rows, Executes readColumns input rows ∧ Filters M filter rows result
  | .sort input orderBy limit,result =>
    ∃ rows, Executes readColumns input rows ∧ Comp (SortsBy order sorting orderBy) (optionally Limits limit) rows result
  | .limit input limit,result => ∃ rows, Executes readColumns input rows ∧ Limits limit rows result
  | .distinct input,result => ∃ rows, Executes readColumns input rows ∧ Dedups rows result
  | .gather input,result => Executes readColumns input result

end Execution
section Reading
variable {α : Type}

def projectionIndices (columns projected : List String) : Option (List ℕ) :=
  projected.mapM fun column => if column ∈ columns then some (columns.idxOf column) else none

def maskRoots (indices : List ℕ) (rows : Rows α) : Rows α :=
  have positions := (List.range rows.columns.length).filter (· ∈ indices)
  ⟨positions.map (rows.columns.getD · ""),rows.rows.map fun row => positions.map (row.getD · none)⟩

/-- `apply_projection` and `enforce_projection_order_cached` of a Parquet reader. -/
def readProjected (projection : Projection) (rows : Rows α) : Option (Rows α) :=
  match projection with
  | .all => some rows
  | .columns projected =>
    (projectionIndices rows.columns projected).map fun indices =>
      -- columns are put in order only where there are as many as names
      if projected.length ≠ (maskRoots indices rows).columns.length then maskRoots indices rows
      else (maskRoots indices rows).project projected

theorem projectionIndices_eq (columns projected : List String) :
    projectionIndices columns projected =
      if projected ⊆ columns then some (projected.map columns.idxOf) else none := by
  unfold projectionIndices
  induction projected with
  | nil => simp
  | cons column projected ih =>
    rw [List.mapM_cons,ih]
    by_cases hcolumn : column ∈ columns <;> by_cases hrest : projected ⊆ columns <;> simp [hcolumn,hrest]

variable {rows : Rows α} {projected : List String}

theorem maskRoots_eq_project (h : projected ⊆ rows.columns) :
    ∃ names, maskRoots (projected.map rows.columns.idxOf) rows = rows.project names ∧
      (projected.Nodup → names.Perm projected) ∧ projected ⊆ names := by
  have hindex : ∀ column ∈ projected, rows.columns.getD (rows.columns.idxOf column) "" = column := by
    intro column hcolumn
    have hlt := List.idxOf_lt_length_of_mem (h hcolumn)
    simp [List.getD_eq_getElem?_getD,List.getElem?_eq_getElem hlt]
  have hposition : ∀ i ∈ (List.range rows.columns.length).filter (· ∈ projected.map rows.columns.idxOf),
      rows.columns.idxOf (rows.columns.getD i "") = i := by
    intro i hi
    obtain ⟨column,hcolumn,rfl⟩ := List.mem_map.mp (of_decide_eq_true (List.mem_filter.mp hi).2)
    rw [hindex column hcolumn]
  refine ⟨((List.range rows.columns.length).filter (· ∈ projected.map rows.columns.idxOf)).map (rows.columns.getD · ""),
    ?_,?_,?_⟩
  · unfold maskRoots Relation.project Relation.pick
    refine congrArg (Relation.mk _) (List.map_congr_left fun row _ => ?_)
    rw [List.map_map]
    refine List.map_congr_left fun i hi => ?_
    rw [Function.comp_apply,Relation.cell,hposition i hi]
    rfl
  · intro hnodup
    have hback : (projected.map rows.columns.idxOf).map (rows.columns.getD · "") = projected := by
      rw [List.map_map]
      exact (List.map_congr_left hindex).trans (List.map_id projected)
    have hindices : (projected.map rows.columns.idxOf).Nodup :=
      List.Nodup.of_map (rows.columns.getD · "") (by rw [hback]; exact hnodup)
    refine List.Perm.trans (List.Perm.map _ ?_) (List.Perm.of_eq hback)
    refine (List.perm_ext_iff_of_nodup (List.nodup_range.filter _) hindices).mpr fun i => ?_
    simp only [List.mem_filter,List.mem_range,decide_eq_true_eq,and_iff_right_iff_imp]
    intro hi
    obtain ⟨column,hcolumn,rfl⟩ := List.mem_map.mp hi
    exact List.idxOf_lt_length_of_mem (h hcolumn)
  · intro column hcolumn
    refine List.mem_map.mpr ⟨rows.columns.idxOf column,List.mem_filter.mpr ⟨?_,?_⟩,hindex column hcolumn⟩
    · exact List.mem_range.mpr (List.idxOf_lt_length_of_mem (h hcolumn))
    · exact decide_eq_true (List.mem_map.mpr ⟨column,hcolumn,rfl⟩)

theorem readProjected_iff {projection : Projection} (hnames : NoRepeat projection) {result : Rows α} :
    readProjected projection rows = some result ↔ Projects projection rows result := by
  cases projection with
  | all => exact Option.some_inj
  | columns projected =>
    simp only [readProjected,projectionIndices_eq,Projects]
    split_ifs with hknown
    · obtain ⟨names,hmask,hperm,hsubset⟩ := maskRoots_eq_project hknown
      have hlength : projected.length = (rows.project names).columns.length := (hperm hnames).length_eq.symm
      simp only [Option.map_some,Option.some_inj,hmask,hlength,ne_eq,not_true_eq_false,if_false,
        Relation.project_project hsubset]
      exact ⟨fun heq => ⟨hknown,heq.symm⟩,fun heq => heq.2.symm⟩
    · simp [hknown]

end Reading
section ScanProjection
variable {σ : Type*} {scan : LogicalScan σ}

theorem nodup_foldl_addColumnOnce {columns names : List String} (h : columns.Nodup) :
    (names.foldl addColumnOnce columns).Nodup := by
  induction names generalizing columns with
  | nil => exact h
  | cons name names ih =>
    apply ih
    unfold addColumnOnce
    split_ifs with hname
    · exact h
    · exact List.nodup_append.mpr ⟨h,List.nodup_singleton name,fun c hc d hd heq => hname (List.mem_singleton.mp hd ▸ heq ▸ hc)⟩

theorem mem_logicalScanProjection {outputColumns : List String} (hprojection : scan.projection = .columns outputColumns) :
    ∃ columns, logicalScanProjection scan = .columns columns ∧ (outputColumns.Nodup → columns.Nodup) ∧ ∀ c,
      c ∈ columns ↔ (c ∈ outputColumns ∨ c ∈ scan.filter.elim [] exprReferencedColumns) ∨
        c ∈ if scan.distinct then [] else scan.orderBy.elim [] sortColumns := by
  rw [logicalScanProjection,hprojection]
  refine ⟨_,rfl,fun h => ?_,fun c => ?_⟩
  · exact nodup_foldl_addColumnOnce (nodup_foldl_addColumnOnce h)
  · rw [mem_foldl_addColumnOnce,mem_foldl_addColumnOnce]

theorem logicalScanProjection_all (hprojection : scan.projection = .all) : logicalScanProjection scan = .all := by
  rw [logicalScanProjection,hprojection]

theorem logicalScanProjection_filter {filter : Expr} (h : scan.filter = some filter) :
    projectionContainsColumns (logicalScanProjection scan) (exprReferencedColumns filter) := by
  cases hprojection : scan.projection with
  | all => rw [logicalScanProjection_all hprojection,projectionContainsColumns]
  | columns outputColumns =>
    obtain ⟨columns,hcolumns,-,hmem⟩ := mem_logicalScanProjection hprojection
    rw [hcolumns,projectionContainsColumns_iff]
    exact fun c hc => (hmem c).mpr (.inl (.inr (by simpa [h] using hc)))

theorem logicalScanProjection_orderBy {orderBy : SortKey} (hdistinct : scan.distinct = false)
    (h : scan.orderBy = some orderBy) :
    projectionContainsColumns (logicalScanProjection scan) (sortColumns orderBy) := by
  cases hprojection : scan.projection with
  | all => rw [logicalScanProjection_all hprojection,projectionContainsColumns]
  | columns outputColumns =>
    obtain ⟨columns,hcolumns,-,hmem⟩ := mem_logicalScanProjection hprojection
    rw [hcolumns,projectionContainsColumns_iff]
    exact fun c hc => (hmem c).mpr (.inr (by simpa [h,hdistinct] using hc))

theorem logicalScanProjection_replace :
    projectionCanReplace (logicalScanProjection scan) scan.projection ∧
      replaceProjection (logicalScanProjection scan) scan.projection = scan.projection := by
  cases hprojection : scan.projection with
  | all =>
    rw [logicalScanProjection_all hprojection]
    exact ⟨rfl,rfl⟩
  | columns outputColumns =>
    obtain ⟨columns,hcolumns,-,hmem⟩ := mem_logicalScanProjection hprojection
    rw [hcolumns]
    exact ⟨List.all_eq_true.mpr fun c hc => decide_eq_true ((hmem c).mpr (.inl (.inl hc))),rfl⟩

theorem logicalScanProjection_noRepeat (h : NoRepeat scan.projection) : NoRepeat (logicalScanProjection scan) := by
  cases hprojection : scan.projection with
  | all =>
    rw [logicalScanProjection_all hprojection]
    trivial
  | columns outputColumns =>
    obtain ⟨columns,hcolumns,hnodup,-⟩ := mem_logicalScanProjection hprojection
    rw [hcolumns]
    rw [hprojection] at h
    exact hnodup h

end ScanProjection
section Lowering
variable {floats : Floats} {ρ : Type*} {M : Meaning floats ρ}

open Relation (Comp)

theorem passes_conjuncts (filter : Expr) {cells : CellRow M.Val} (h : passes M filter cells) :
    ∀ expr ∈ collectConjuncts filter, passes M expr cells := by
  induction filter with
  | and left right ihleft ihright =>
    rw [passes_and,Bool.and_eq_true] at h
    intro expr hexpr
    exact (List.mem_append.mp hexpr).elim (ihleft h.1 expr) (ihright h.2 expr)
  | boolean | not | inList | isNull => exact fun expr hexpr => (List.not_mem_nil hexpr).elim
  | comparison | columnComparison | like | or => simpa [collectConjuncts] using h

theorem reads_filters (filter : Option Expr) :
    Comp (Reads M (pushdown filter)) (optionally (Filters M) filter) = optionally (Filters M) filter := by
  funext input output
  apply propext
  cases filter with
  | none =>
    constructor
    · rintro ⟨rows,⟨hcolumns,-,hkept⟩,rfl⟩
      have hrows := congrArg Relation.rows hkept
      simp only [Relation.filter,pushdown,Option.elim_none,List.all_nil,List.filter_true] at hrows
      cases input
      cases rows
      exact congrArg₂ _ hcolumns.symm hrows.symm
    · rintro rfl
      exact ⟨input,⟨rfl,List.Sublist.refl _,rfl⟩,rfl⟩
  | some filter =>
    constructor
    · rintro ⟨rows,⟨hcolumns,-,hkept⟩,hknown,rfl⟩
      have himplies : passes M filter = fun cells =>
          (pushdown (some filter)).all (passes M · cells) && passes M filter cells := by
        funext cells
        cases h : passes M filter cells with
        | false => simp
        | true =>
          have hall : (pushdown (some filter)).all (passes M · cells) = true := List.all_eq_true.mpr fun expr hexpr =>
            passes_conjuncts filter h expr (List.mem_of_mem_filter hexpr)
          rw [hall]
          rfl
      refine ⟨hcolumns ▸ hknown,?_⟩
      rw [himplies,← Relation.filter_filter,← Relation.filter_filter,hkept]
    · intro h
      exact ⟨input,⟨rfl,List.Sublist.refl _,rfl⟩,h⟩

variable {order : ValueOrder M.Val} {sorting : Arrangement} {σ : Type*}

theorem limits_idem {α : Type} (limit : Option ℕ) :
    Comp (optionally Limits limit) (optionally Limits limit) = optionally (Limits (α := α)) limit := by
  cases limit with
  | none => exact Relation.eq_comp
  | some limit =>
    refine (limits_limits (some limit) limit).trans ?_
    rw [minLimit,Option.elim_some,min_self]
    rfl

def SortsUpTo (order : ValueOrder M.Val) (sorting : Arrangement) (limit : Option ℕ) (orderBy : SortKey) :
    Rows M.Val → Rows M.Val → Prop :=
  Comp (SortsBy order sorting orderBy) (optionally Limits limit)

theorem sorts_limits (orderBy : Option SortKey) (limit : Option ℕ) :
    Comp (optionally (SortsUpTo order sorting limit) orderBy) (optionally Limits limit) =
      Comp (optionally (SortsBy order sorting) orderBy) (optionally Limits limit) := by
  cases orderBy with
  | none => rfl
  | some orderBy =>
    change Comp (Comp _ _) _ = Comp (SortsBy order sorting orderBy) _
    rw [Relation.comp_assoc,limits_idem]

variable {scan : LogicalScan σ}

theorem optionally_scanProjection_filters :
    Comp (Projects (logicalScanProjection scan)) (optionally (Filters M) scan.filter) =
      Comp (optionally (Filters M) scan.filter) (Projects (logicalScanProjection scan)) := by
  cases h : scan.filter with
  | none => exact Relation.comp_eq.trans Relation.eq_comp.symm
  | some filter => exact projects_filters (logicalScanProjection_filter h)

theorem optionally_scanProjection_sorts (hdistinct : scan.distinct = false) (limit : Option ℕ) :
    Comp (Projects (logicalScanProjection scan)) (optionally (SortsUpTo order sorting limit) scan.orderBy) =
      Comp (optionally (SortsUpTo order sorting limit) scan.orderBy) (Projects (logicalScanProjection scan)) := by
  cases h : scan.orderBy with
  | none => exact Relation.comp_eq.trans Relation.eq_comp.symm
  | some orderBy =>
    change Comp _ (Comp _ _) = Comp (Comp _ _) _
    rw [← Relation.comp_assoc,projects_sortsBy (logicalScanProjection_orderBy hdistinct h),Relation.comp_assoc,
      ← limits_projects,Relation.comp_assoc]

theorem optionally_filters_known {filter : Option Expr} {input output : Rows M.Val}
    (h : optionally (Filters M) filter input output) :
    output.columns = input.columns ∧ ∀ expr ∈ filter, exprReferencedColumns expr ⊆ output.columns := by
  refine ⟨columns_of_filters h,?_⟩
  cases filter with
  | none => simp
  | some filter =>
    rintro _ ⟨⟩
    rw [columns_of_filters h]
    exact h.1

theorem sortsUpTo_known {limit : Option ℕ} {orderBy : Option SortKey} {input output : Rows M.Val}
    (h : optionally (SortsUpTo order sorting limit) orderBy input output) :
    output.columns = input.columns ∧ ∀ key ∈ orderBy, sortColumns key ⊆ input.columns := by
  cases orderBy with
  | none => exact ⟨congrArg Relation.columns h.symm,by simp⟩
  | some orderBy =>
    obtain ⟨sorted,⟨hkeys,hcolumns,-⟩,hlimit⟩ := h
    refine ⟨?_,by simpa using hkeys⟩
    cases limit with
    | none => exact hlimit ▸ hcolumns
    | some limit => exact hlimit ▸ hcolumns

theorem scanProjection_output (rows result : Rows M.Val) (hknown : Knows rows (logicalScanProjection scan)) :
    Comp (Projects (logicalScanProjection scan))
        (if decide (logicalScanProjection scan ≠ scan.projection) then Projects scan.projection else Eq) rows result ↔
      Projects scan.projection rows result := by
  by_cases hsame : logicalScanProjection scan = scan.projection
  · rw [if_neg (by simpa using hsame),Relation.comp_eq,hsame]
  · rw [if_pos (by simpa using hsame)]
    have hreplace := projects_replace logicalScanProjection_replace.1 hknown result
    rw [logicalScanProjection_replace.2] at hreplace
    exact hreplace.symm

theorem knows_logicalScanProjection {rows : Rows M.Val} (houtput : Knows rows scan.projection)
    (hfilter : ∀ filter ∈ scan.filter, exprReferencedColumns filter ⊆ rows.columns)
    (hsort : scan.distinct = false → ∀ orderBy ∈ scan.orderBy, sortColumns orderBy ⊆ rows.columns) :
    Knows rows (logicalScanProjection scan) := by
  cases hprojection : scan.projection with
  | all =>
    rw [logicalScanProjection_all hprojection]
    trivial
  | columns outputColumns =>
    obtain ⟨columns,hcolumns,-,hmem⟩ := mem_logicalScanProjection hprojection
    rw [hprojection] at houtput
    rw [hcolumns]
    intro c hc
    rcases (hmem c).mp hc with (hc | hc) | hc
    · exact houtput hc
    · cases h : scan.filter with
      | none => simp [h] at hc
      | some filter => exact hfilter filter h (by simpa [h] using hc)
    · cases hdistinct : scan.distinct with
      | true => simp [hdistinct] at hc
      | false =>
        cases h : scan.orderBy with
        | none => simp [hdistinct,h] at hc
        | some orderBy => exact hsort hdistinct orderBy h (by simpa [hdistinct,h] using hc)

variable [DecidableEq M.Val] {store : σ → Rows M.Val}
variable {readColumns : Projection → Rows M.Val → Rows M.Val → Prop}

variable (order sorting store readColumns) in
def Means (node : PhysicalExecution σ) (table : Rows M.Val) (steps : Rows M.Val → Rows M.Val → Prop) : Prop :=
  ∀ result, Executes M order sorting store readColumns node result ↔ steps table result

section Nodes
variable (insertExchanges : Bool) {node : PhysicalExecution σ} {table : Rows M.Val} {steps : Rows M.Val → Rows M.Val → Prop}

theorem executes_ensureSingle (result : Rows M.Val) :
    Executes M order sorting store readColumns (ensureSingle insertExchanges node) result ↔
      Executes M order sorting store readColumns node result := by
  unfold ensureSingle
  split_ifs
  · exact Iff.rfl
  · exact Iff.rfl

theorem means_filter (h : Means order sorting store readColumns node table steps) (filter : Option Expr) :
    Means order sorting store readColumns (filter.elim node node.filter) table (Comp steps (optionally (Filters M) filter)) := by
  cases filter with
  | none =>
    change Means order sorting store readColumns node table (Comp steps Eq)
    rw [Relation.comp_eq]
    exact h
  | some filter => exact fun result => exists_congr fun rows => and_congr_left fun _ => h rows

theorem means_projection (h : Means order sorting store readColumns node table steps) (needed : Bool)
    (projection : Projection) :
    Means order sorting store readColumns (if needed then node.projection projection else node) table
      (Comp steps (if needed then Projects projection else Eq)) := by
  cases needed with
  | false =>
    change Means order sorting store readColumns node table (Comp steps Eq)
    rw [Relation.comp_eq]
    exact h
  | true => exact fun result => exists_congr fun rows => and_congr_left fun _ => h rows

theorem means_distinct (h : Means order sorting store readColumns node table steps) :
    Means order sorting store readColumns (.distinct (ensureSingle insertExchanges node)) table (Comp steps Dedups) :=
  fun _ => exists_congr fun rows => and_congr_left fun _ => (executes_ensureSingle insertExchanges rows).trans (h rows)

theorem means_sort (h : Means order sorting store readColumns node table steps) (orderBy : Option SortKey)
    (limit : Option ℕ) :
    Means order sorting store readColumns
      (orderBy.elim node fun orderBy => .sort (ensureSingle insertExchanges node) orderBy limit) table
      (Comp steps (optionally (SortsUpTo order sorting limit) orderBy)) := by
  cases orderBy with
  | none =>
    change Means order sorting store readColumns node table (Comp steps Eq)
    rw [Relation.comp_eq]
    exact h
  | some orderBy =>
    exact fun _ => exists_congr fun rows => and_congr_left fun _ => (executes_ensureSingle insertExchanges rows).trans (h rows)

theorem means_limit (h : Means order sorting store readColumns node table steps) (limit : Option ℕ) :
    Means order sorting store readColumns
      (limit.elim node fun limit => .limit (ensureSingle insertExchanges node) limit) table
      (Comp steps (optionally Limits limit)) := by
  cases limit with
  | none =>
    change Means order sorting store readColumns node table (Comp steps Eq)
    rw [Relation.comp_eq]
    exact h
  | some limit =>
    exact fun _ => exists_congr fun rows => and_congr_left fun _ => (executes_ensureSingle insertExchanges rows).trans (h rows)

end Nodes


variable (insertExchanges : Bool)

theorem means_filteredScan (hread : readColumns (logicalScanProjection scan) = Projects (logicalScanProjection scan)) :
    Means order sorting store readColumns
      (scan.filter.elim (.scan scan.source (logicalScanProjection scan) (pushdown scan.filter))
        (PhysicalExecution.scan scan.source (logicalScanProjection scan) (pushdown scan.filter)).filter)
      (store scan.source) (Comp (optionally (Filters M) scan.filter) (Projects (logicalScanProjection scan))) := by
  have hscan : Means order sorting store readColumns
      (.scan scan.source (logicalScanProjection scan) (pushdown scan.filter)) (store scan.source)
      (Comp (Reads M (pushdown scan.filter)) (Projects (logicalScanProjection scan))) := by
    intro result
    rw [Executes,hread]
  have hfiltered := means_filter hscan scan.filter
  rwa [Relation.comp_assoc,optionally_scanProjection_filters,← Relation.comp_assoc,reads_filters] at hfiltered

theorem means_planScan_of_distinct (hread : readColumns (logicalScanProjection scan) = Projects (logicalScanProjection scan))
    (hdistinct : scan.distinct = true) :
    Means order sorting store readColumns (planScan insertExchanges scan) (store scan.source)
      (Comp (optionally (Filters M) scan.filter)
        (Comp (Comp (Projects (logicalScanProjection scan))
          (if decide (logicalScanProjection scan ≠ scan.projection) then Projects scan.projection else Eq))
          (Comp Dedups (Comp (optionally (SortsBy order sorting) scan.orderBy) (optionally Limits scan.limit))))) := by
  have hfiltered : Means order sorting store readColumns _ (store scan.source) _ := means_filteredScan hread
  have hprojected := means_projection hfiltered (decide (logicalScanProjection scan ≠ scan.projection)) scan.projection
  have hmeans := means_limit insertExchanges (means_sort insertExchanges (means_distinct insertExchanges hprojected)
    scan.orderBy scan.limit) scan.limit
  rw [Relation.comp_assoc,sorts_limits] at hmeans
  simp only [Relation.comp_assoc] at hmeans ⊢
  unfold planScan
  rw [hdistinct]
  exact hmeans

theorem means_planScan_of_not_distinct
    (hread : readColumns (logicalScanProjection scan) = Projects (logicalScanProjection scan))
    (hdistinct : scan.distinct = false) :
    Means order sorting store readColumns (planScan insertExchanges scan) (store scan.source)
      (Comp (optionally (Filters M) scan.filter)
        (Comp (optionally (SortsUpTo order sorting scan.limit) scan.orderBy)
          (Comp (Comp (Projects (logicalScanProjection scan))
            (if decide (logicalScanProjection scan ≠ scan.projection) then Projects scan.projection else Eq))
            (optionally Limits scan.limit)))) := by
  have hfiltered : Means order sorting store readColumns _ (store scan.source) _ := means_filteredScan hread
  have hsorted := means_sort insertExchanges hfiltered scan.orderBy scan.limit
  have hmeans := means_limit insertExchanges (means_projection hsorted
    (decide (logicalScanProjection scan ≠ scan.projection)) scan.projection) scan.limit
  rw [@Relation.comp_assoc _ _ _ _ (optionally (Filters M) scan.filter),optionally_scanProjection_sorts hdistinct] at hmeans
  simp only [Relation.comp_assoc] at hmeans ⊢
  unfold planScan
  rw [hdistinct]
  exact hmeans

/-- A scan that is lowered has the results of the scan, where its reader reads projections. -/
theorem executes_planScan
    (hread : readColumns (logicalScanProjection scan) = Projects (logicalScanProjection scan)) (result : Rows M.Val) :
    Executes M order sorting store readColumns (planScan insertExchanges scan) result ↔
      ScanYields M order sorting store scan result := by
  cases hdistinct : scan.distinct with
  | true =>
    refine (means_planScan_of_distinct insertExchanges hread hdistinct result).trans ?_
    have hshape : Comp (Shapes M order sorting scan) (optionally Limits scan.limit) =
        Comp (Projects scan.projection) (Comp Dedups
          (Comp (optionally (SortsBy order sorting) scan.orderBy) (optionally Limits scan.limit))) := by
      rw [Shapes,hdistinct,if_pos rfl,Relation.comp_assoc,Relation.comp_assoc]
    rw [ScanYields,hshape]
    refine exists_congr fun filtered => and_congr_right fun hfilter => exists_congr fun projected => and_congr_left fun _ => ?_
    constructor
    · intro h
      obtain ⟨_,hscan,_⟩ := id h
      exact (scanProjection_output filtered projected (knows_of_projects hscan)).mp h
    · intro h
      refine (scanProjection_output filtered projected ?_).mpr h
      exact knows_logicalScanProjection (knows_of_projects h) (optionally_filters_known hfilter).2
        fun hfalse => absurd (hdistinct.symm.trans hfalse) (by decide)
  | false =>
    refine (means_planScan_of_not_distinct insertExchanges hread hdistinct result).trans ?_
    have hshape : Comp (Shapes M order sorting scan) (optionally Limits scan.limit) =
        Comp (optionally (SortsUpTo order sorting scan.limit) scan.orderBy)
          (Comp (Projects scan.projection) (optionally Limits scan.limit)) := by
      rw [Shapes,hdistinct,if_neg Bool.false_ne_true,Relation.comp_assoc,← limits_projects,← Relation.comp_assoc,
        ← sorts_limits,Relation.comp_assoc]
    rw [ScanYields,hshape]
    refine exists_congr fun filtered => and_congr_right fun hfilter => exists_congr fun sorted =>
      and_congr_right fun hsort => exists_congr fun projected => and_congr_left fun _ => ?_
    constructor
    · intro h
      obtain ⟨_,hscan,_⟩ := id h
      exact (scanProjection_output sorted projected (knows_of_projects hscan)).mp h
    · intro h
      refine (scanProjection_output sorted projected ?_).mpr h
      have hcolumns := (sortsUpTo_known hsort).1
      exact knows_logicalScanProjection (knows_of_projects h)
        (fun filter hmem => hcolumns ▸ (optionally_filters_known hfilter).2 filter hmem)
        fun _ orderBy hmem => hcolumns ▸ (sortsUpTo_known hsort).2 orderBy hmem

def ScanProjections (condition : Projection → Prop) : LogicalPlan σ → Prop
  | .tableScan scan => condition (logicalScanProjection scan)
  | .projection input _ | .filter input _ | .sort input _ _ | .limit input _ | .distinct input =>
    ScanProjections condition input

theorem executes_planNode {logical : LogicalPlan σ}
    (hread : ScanProjections (fun projection => readColumns projection = Projects projection) logical)
    (result : Rows M.Val) :
    Executes M order sorting store readColumns (planNode insertExchanges logical) result ↔
      Yields M order sorting store logical result := by
  induction logical generalizing result with
  | tableScan scan => exact executes_planScan insertExchanges hread result
  | projection input projection ih | filter input filter ih =>
    exact exists_congr fun rows => and_congr_left fun _ => ih hread rows
  | sort input orderBy limit ih | limit input limit ih | distinct input ih =>
    exact exists_congr fun rows => and_congr_left fun _ =>
      (executes_ensureSingle insertExchanges rows).trans (ih hread rows)

end Lowering
section Names
variable {σ : Type*}

theorem scanProjections_of_namesOnce {plan : LogicalPlan σ} (h : plan.NamesOnce) :
    ScanProjections NoRepeat plan := by
  induction plan with
  | tableScan scan => exact logicalScanProjection_noRepeat h
  | projection input projection ih => exact ih h.1
  | filter input filter ih | sort input orderBy limit ih | limit input limit ih | distinct input ih => exact ih h

theorem scanProjections_mono {condition condition' : Projection → Prop} (himplies : ∀ p, condition p → condition' p)
    {plan : LogicalPlan σ} (h : ScanProjections condition plan) : ScanProjections condition' plan := by
  induction plan with
  | tableScan scan => exact himplies _ h
  | projection input projection ih | filter input filter ih | sort input orderBy limit ih | limit input limit ih
  | distinct input ih => exact ih h

theorem scanProjections_of_forall {condition : Projection → Prop} (h : ∀ p, condition p) (plan : LogicalPlan σ) :
    ScanProjections condition plan := by
  induction plan with
  | tableScan scan => exact h _
  | projection input projection ih | filter input filter ih | sort input orderBy limit ih | limit input limit ih
  | distinct input ih => exact ih

end Names
section Meaning
variable {floats : Floats} {ρ : Type*} (M : Meaning floats ρ) [DecidableEq M.Val]
variable (order : ValueOrder M.Val) (sorting : Arrangement) {σ : Type*} (store : σ → Rows M.Val)

def ReadsFile (projection : Projection) (rows result : Rows M.Val) : Prop := readProjected projection rows = some result

/-- A plan with a result has the same results when it is optimised and lowered, with scans that project; with
the scans of the readers it has them where no projection repeats a name. -/
theorem plan_executes (insertExchanges : Bool) (logical : LogicalPlan σ) {first : Rows M.Val}
    (h : Yields M order sorting store logical first) :
    (∀ result, Executes M order sorting store Projects (plan insertExchanges logical) result ↔
      Yields M order sorting store logical result) ∧
    (logical.NamesOnce → ∀ result, Executes M order sorting store (ReadsFile M) (plan insertExchanges logical) result ↔
      Yields M order sorting store logical result) := by
  have hoptimized := optimizeLogicalNode_yields logical h
  constructor
  · intro result
    have hread : ScanProjections (fun projection => @Projects M.Val projection = Projects projection)
        (optimize logical).plan :=
      scanProjections_of_forall (fun _ => rfl) _
    exact (executes_planNode insertExchanges hread result).trans (hoptimized result)
  · intro hnames result
    have hread := @scanProjections_mono _ _ (fun projection => ReadsFile M projection = Projects projection)
      (fun projection hprojection => funext₂ fun rows result => propext (readProjected_iff hprojection)) _
      (scanProjections_of_namesOnce (namesOnce_optimizeLogicalNode logical hnames))
    exact (executes_planNode insertExchanges hread result).trans (hoptimized result)

end Meaning
section Repeats

def sampleRank : LiteralValue → ℤ
  | .int64 value => value.toInt
  | _ => 0

def sampleOrder : ValueOrder Optimizer.rowMeaning.Val where
  compare := compareOn sampleRank
  trans := inferInstanceAs (Std.TransCmp (compareOn sampleRank))

def sampleTable : Rows Optimizer.rowMeaning.Val :=
  ⟨["a","b"],[[some (.int64 2),some (.int64 1)],[some (.int64 1),some (.int64 1)],[some (.int64 0),some (.int64 3)]]⟩

def sampleScan : LogicalPlan Unit := .tableScan ⟨(),.all,none,none,none,false⟩

/-- `SELECT a FROM t WHERE b = 1 ORDER BY a LIMIT 1`. -/
def samplePlan : LogicalPlan Unit :=
  .limit (.projection (.sort (.filter sampleScan (.comparison ⟨"b",.eq,.int64 1⟩)) ⟨[⟨"a",false,false⟩]⟩ none)
    (.columns ["a"])) 1

theorem samplePlan_yields :
    Yields Optimizer.rowMeaning sampleOrder .stable (fun _ => sampleTable) samplePlan ⟨["a"],[[some (.int64 1)]]⟩ := by
  have hfiltered : Filters Optimizer.rowMeaning (.comparison ⟨"b",.eq,.int64 1⟩) sampleTable
      ⟨["a","b"],[[some (.int64 2),some (.int64 1)],[some (.int64 1),some (.int64 1)]]⟩ := ⟨by decide,rfl⟩
  have hsorted : SortsBy sampleOrder .stable ⟨[⟨"a",false,false⟩]⟩
      ⟨["a","b"],[[some (.int64 2),some (.int64 1)],[some (.int64 1),some (.int64 1)]]⟩
      ⟨["a","b"],[[some (.int64 1),some (.int64 1)],[some (.int64 2),some (.int64 1)]]⟩ := ⟨by decide,rfl,rfl⟩
  have hscan : Yields Optimizer.rowMeaning sampleOrder .stable (fun _ => sampleTable) sampleScan sampleTable :=
    ⟨_,rfl,_,⟨_,rfl,rfl⟩,rfl⟩
  exact ⟨⟨["a"],[[some (.int64 1)],[some (.int64 2)]]⟩,
    ⟨_,⟨_,⟨_,hscan,hfiltered⟩,⟨_,hsorted,rfl⟩⟩,by decide,rfl⟩,rfl⟩

theorem samplePlan_executes :
    Yields Optimizer.rowMeaning sampleOrder .stable (fun _ => sampleTable) samplePlan ⟨["a"],[[some (.int64 1)]]⟩ ∧
      Executes Optimizer.rowMeaning sampleOrder .stable (fun _ => sampleTable) (ReadsFile Optimizer.rowMeaning) (plan true samplePlan)
        ⟨["a"],[[some (.int64 1)]]⟩ :=
  ⟨samplePlan_yields,((plan_executes Optimizer.rowMeaning sampleOrder .stable (fun _ => sampleTable) true samplePlan
    samplePlan_yields).2 ⟨trivial,List.nodup_singleton "a"⟩ _).mpr samplePlan_yields⟩

/-- The two integers of a table by a column that is named twice. -/
def repeatedPlan : LogicalPlan Unit := .projection sampleScan (.columns ["a","a"])

theorem plan_repeatedPlan : plan true repeatedPlan = .scan () (.columns ["a","a"]) [] := by
  rw [plan,optimize,repeatedPlan,optimizeLogicalNode,sampleScan,optimizeLogicalNode]
  rfl

/-- The readers deliver one column for it. -/
theorem plan_loses_repeated :
    ¬ ∀ (logical : LogicalPlan Unit) (first : Rows Optimizer.rowMeaning.Val),
      Yields Optimizer.rowMeaning sampleOrder .stable (fun _ => sampleTable) logical first → ∀ result,
        (Executes Optimizer.rowMeaning sampleOrder .stable (fun _ => sampleTable) (ReadsFile Optimizer.rowMeaning) (plan true logical) result ↔
          Yields Optimizer.rowMeaning sampleOrder .stable (fun _ => sampleTable) logical result) := by
  intro hall
  have hyields : Yields Optimizer.rowMeaning sampleOrder .stable (fun _ => sampleTable) repeatedPlan
      (sampleTable.project ["a","a"]) := ⟨sampleTable,⟨_,rfl,_,⟨_,rfl,rfl⟩,rfl⟩,by decide,rfl⟩
  have hexecutes := (hall _ _ hyields _).mpr hyields
  rw [plan_repeatedPlan] at hexecutes
  obtain ⟨rows,⟨hcolumns,hsublist,hrows⟩,hread⟩ := hexecutes
  have hsame : sampleTable = rows :=
    (congrFun₂ (reads_filters (M := Optimizer.rowMeaning) none) sampleTable rows).mp ⟨rows,⟨hcolumns,hsublist,hrows⟩,rfl⟩
  rw [← hsame] at hread
  exact absurd (congrArg (Option.map Relation.columns) hread) (by decide)

end Repeats
end Dodam.Plan
