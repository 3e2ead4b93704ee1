import Dodam.Plan.LogicalPlan

/-! # Rewriting of logical plans

Filters, projections, sorts, limits and duplicate eliminations move into the scan where that is
allowed, two filters become one, and a sort under a limit gets the limit.
-/
namespace Dodam.Plan
open Foundation Execution Storage Optimizer Sql

inductive OptimizerRule
  | filterIntoScan
  | projectionIntoScan
  | sortIntoScan
  | limitIntoScan
  | distinctIntoScan
  | combineFilters
  | limitIntoSort
deriving DecidableEq

structure OptimizedLogicalPlan (σ : Type*) where
  plan : LogicalPlan σ
  appliedRules : List OptimizerRule

section Optimize
variable {σ : Type*}

/-- The arm of `optimize_logical_node` for each node, over an input that is optimised. -/
def optimizeProjection (projection : Projection) : LogicalPlan σ → OptimizedLogicalPlan σ
  | .tableScan scan =>
    if !scan.distinct && projectionCanReplace scan.projection projection then
      ⟨.tableScan { scan with projection := replaceProjection scan.projection projection },[.projectionIntoScan]⟩
    else ⟨.projection (.tableScan scan) projection,[]⟩
  | input => ⟨.projection input projection,[]⟩

def optimizeFilter (filter : Expr) : LogicalPlan σ → OptimizedLogicalPlan σ
  | .tableScan scan =>
    if scan.limit.isNone && projectionContainsColumns scan.projection (exprReferencedColumns filter) then
      ⟨.tableScan { scan with filter := combineFilterExprs scan.filter (some filter) },[.filterIntoScan]⟩
    else ⟨.filter (.tableScan scan) filter,[]⟩
  | input => ⟨.filter input filter,[]⟩

def optimizeSort (orderBy : SortKey) (limit : Option ℕ) : LogicalPlan σ → OptimizedLogicalPlan σ
  | .tableScan scan =>
    if scan.orderBy.isNone && scan.limit.isNone && projectionContainsColumns scan.projection (sortColumns orderBy) then
      ⟨.tableScan { scan with orderBy := some orderBy, limit := limit },[.sortIntoScan]⟩
    else ⟨.sort (.tableScan scan) orderBy limit,[]⟩
  | input => ⟨.sort input orderBy limit,[]⟩

def optimizeLimit (limit : ℕ) : LogicalPlan σ → OptimizedLogicalPlan σ
  | .tableScan scan => ⟨.tableScan { scan with limit := some (minLimit scan.limit limit) },[.limitIntoScan]⟩
  | .sort input orderBy sortLimit => ⟨.limit (.sort input orderBy (some (minLimit sortLimit limit))) limit,[.limitIntoSort]⟩
  | input => ⟨.limit input limit,[]⟩

def optimizeDistinct : LogicalPlan σ → OptimizedLogicalPlan σ
  | .tableScan scan =>
    if scan.limit.isNone && scan.orderBy.isNone then ⟨.tableScan { scan with distinct := true },[.distinctIntoScan]⟩
    else ⟨.distinct (.tableScan scan),[]⟩
  | input => ⟨.distinct input,[]⟩

def OptimizedLogicalPlan.after (optimized : OptimizedLogicalPlan σ) (rules : List OptimizerRule) : OptimizedLogicalPlan σ :=
  { optimized with appliedRules := rules ++ optimized.appliedRules }

def LogicalPlan.nodes : LogicalPlan σ → ℕ
  | .tableScan _ => 1
  | .projection input _ | .filter input _ | .sort input _ _ | .limit input _ | .distinct input => input.nodes + 1

theorem optimizeProjection_nodes (projection : Projection) (input : LogicalPlan σ) :
    (optimizeProjection projection input).plan.nodes ≤ input.nodes + 1 := by
  unfold optimizeProjection
  split
  · split_ifs <;> simp [LogicalPlan.nodes]
  · exact le_refl _

theorem optimizeFilter_nodes (filter : Expr) (input : LogicalPlan σ) :
    (optimizeFilter filter input).plan.nodes ≤ input.nodes + 1 := by
  unfold optimizeFilter
  split
  · split_ifs <;> simp [LogicalPlan.nodes]
  · exact le_refl _

theorem optimizeSort_nodes (orderBy : SortKey) (limit : Option ℕ) (input : LogicalPlan σ) :
    (optimizeSort orderBy limit input).plan.nodes ≤ input.nodes + 1 := by
  unfold optimizeSort
  split
  · split_ifs <;> simp [LogicalPlan.nodes]
  · exact le_refl _

theorem optimizeLimit_nodes (limit : ℕ) (input : LogicalPlan σ) :
    (optimizeLimit limit input).plan.nodes ≤ input.nodes + 1 := by
  unfold optimizeLimit
  split <;> simp [LogicalPlan.nodes]

theorem optimizeDistinct_nodes (input : LogicalPlan σ) :
    (optimizeDistinct input).plan.nodes ≤ input.nodes + 1 := by
  unfold optimizeDistinct
  split
  · split_ifs <;> simp [LogicalPlan.nodes]
  · exact le_refl _

/-- `optimize_logical_node`; two filters are combined and optimised again, over fewer nodes. -/
def optimizeLogicalNode (plan : LogicalPlan σ) : {optimized : OptimizedLogicalPlan σ // optimized.plan.nodes ≤ plan.nodes} :=
  match plan with
  | .tableScan scan => ⟨⟨.tableScan scan,[]⟩,le_refl _⟩
  | .projection input projection =>
    have optimized := optimizeLogicalNode input
    ⟨(optimizeProjection projection optimized.1.plan).after optimized.1.appliedRules,
      (optimizeProjection_nodes _ _).trans (Nat.succ_le_succ optimized.2)⟩
  | .filter input filter =>
    have optimized := optimizeLogicalNode input
    match h : optimized.1.plan with
    | .filter inner first =>
      have hinner : inner.nodes + 1 ≤ input.nodes := by simpa only [h,LogicalPlan.nodes] using optimized.2
      have again := optimizeLogicalNode (.filter inner (.and first filter))
      ⟨again.1.after (optimized.1.appliedRules ++ [.combineFilters]),again.2.trans (Nat.le_succ_of_le hinner)⟩
    | _ =>
      ⟨(optimizeFilter filter optimized.1.plan).after optimized.1.appliedRules,
        (optimizeFilter_nodes _ _).trans (Nat.succ_le_succ optimized.2)⟩
  | .sort input orderBy limit =>
    have optimized := optimizeLogicalNode input
    ⟨(optimizeSort orderBy limit optimized.1.plan).after optimized.1.appliedRules,
      (optimizeSort_nodes _ _ _).trans (Nat.succ_le_succ optimized.2)⟩
  | .limit input limit =>
    have optimized := optimizeLogicalNode input
    ⟨(optimizeLimit limit optimized.1.plan).after optimized.1.appliedRules,
      (optimizeLimit_nodes _ _).trans (Nat.succ_le_succ optimized.2)⟩
  | .distinct input =>
    have optimized := optimizeLogicalNode input
    ⟨(optimizeDistinct optimized.1.plan).after optimized.1.appliedRules,
      (optimizeDistinct_nodes _).trans (Nat.succ_le_succ optimized.2)⟩
termination_by plan.nodes
decreasing_by
  · exact Nat.lt_succ_self _
  · exact Nat.lt_succ_self _
  · exact Nat.lt_succ_of_le hinner
  · exact Nat.lt_succ_self _
  · exact Nat.lt_succ_self _
  · exact Nat.lt_succ_self _

def optimize (plan : LogicalPlan σ) : OptimizedLogicalPlan σ := (optimizeLogicalNode plan).1

end Optimize
section Rules
variable {floats : Floats} {ρ : Type*} {M : Meaning floats ρ}
variable {order : ValueOrder M.Val} {sorting : Arrangement} {σ : Type*} {store : σ → Rows M.Val}

open Relation (Comp)

theorem projects_replace {scan output : Projection} (h : projectionCanReplace scan output) {rows : Rows M.Val}
    (hknown : Knows rows scan) (result : Rows M.Val) :
    Projects (replaceProjection scan output) rows result ↔ Comp (Projects scan) (Projects output) rows result := by
  cases output with
  | all => exact iff_of_eq (congrFun₂ Relation.comp_eq rows result).symm
  | columns output =>
    cases scan with
    | all => exact iff_of_eq (congrFun₂ Relation.eq_comp rows result).symm
    | columns columns =>
      have hcolumns : output ⊆ columns := fun c hc => of_decide_eq_true (List.all_eq_true.mp h c hc)
      constructor
      · rintro ⟨-,rfl⟩
        exact ⟨_,⟨hknown,rfl⟩,hcolumns,(Relation.project_project hcolumns).symm⟩
      · rintro ⟨_,⟨-,rfl⟩,-,rfl⟩
        exact ⟨List.Subset.trans hcolumns hknown,Relation.project_project hcolumns⟩

variable [DecidableEq M.Val]

variable {scan : LogicalScan σ} {projection : Projection}

theorem shapes_filters {filter : Expr}
    (h : projectionContainsColumns scan.projection (exprReferencedColumns filter)) :
    Comp (Shapes M order sorting scan) (Filters M filter) = Comp (Filters M filter) (Shapes M order sorting scan) := by
  unfold Shapes
  split_ifs
  · rw [Relation.comp_assoc,Relation.comp_assoc,optionally_sortsBy_filters,← @Relation.comp_assoc _ _ _ _ Dedups,
      dedups_filters,Relation.comp_assoc,← Relation.comp_assoc,projects_filters h,Relation.comp_assoc]
  · rw [Relation.comp_assoc,projects_filters h,← Relation.comp_assoc,optionally_sortsBy_filters,Relation.comp_assoc]

theorem scanYields_filter {filter : Expr} (hlimit : scan.limit = none)
    (h : projectionContainsColumns scan.projection (exprReferencedColumns filter)) (result : Rows M.Val) :
    ScanYields M order sorting store { scan with filter := combineFilterExprs scan.filter (some filter) } result ↔
      ∃ rows, ScanYields M order sorting store scan rows ∧ Filters M filter rows result := by
  have hsteps : Comp (Comp (optionally (Filters M) scan.filter)
      (Comp (Shapes M order sorting scan) (optionally Limits scan.limit))) (Filters M filter) =
      Comp (optionally (Filters M) (combineFilterExprs scan.filter (some filter)))
        (Comp (Shapes M order sorting scan) (optionally Limits scan.limit)) := by
    rw [hlimit]
    change Comp (Comp _ (Comp _ Eq)) _ = Comp _ (Comp _ Eq)
    rw [Relation.comp_eq,Relation.comp_assoc,shapes_filters h,← Relation.comp_assoc,optionally_filters_filters]
  exact iff_of_eq (congrFun₂ hsteps _ result).symm

theorem scanYields_sort {orderBy : SortKey} (limit : Option ℕ) (horder : scan.orderBy = none)
    (hlimit : scan.limit = none) (h : projectionContainsColumns scan.projection (sortColumns orderBy))
    (result : Rows M.Val) :
    ScanYields M order sorting store { scan with orderBy := some orderBy, limit := limit } result ↔
      ∃ rows, ScanYields M order sorting store scan rows ∧
        Comp (SortsBy order sorting orderBy) (optionally Limits limit) rows result := by
  have hshape : Comp (Shapes M order sorting scan) (SortsBy order sorting orderBy) =
      Shapes M order sorting { scan with orderBy := some orderBy } := by
    unfold Shapes
    rw [horder]
    split_ifs
    · change Comp (Comp _ (Comp _ Eq)) _ = Comp _ (Comp _ (SortsBy order sorting orderBy))
      rw [Relation.comp_eq,Relation.comp_assoc]
    · change Comp (Comp Eq _) _ = Comp (SortsBy order sorting orderBy) _
      rw [Relation.eq_comp,projects_sortsBy h]
  have hsteps : Comp (Comp (optionally (Filters M) scan.filter)
      (Comp (Shapes M order sorting scan) (optionally Limits scan.limit)))
        (Comp (SortsBy order sorting orderBy) (optionally Limits limit)) =
      Comp (optionally (Filters M) scan.filter)
        (Comp (Shapes M order sorting { scan with orderBy := some orderBy }) (optionally Limits limit)) := by
    rw [hlimit]
    change Comp (Comp _ (Comp _ Eq)) _ = _
    rw [Relation.comp_eq,Relation.comp_assoc,← @Relation.comp_assoc _ _ _ _ (Shapes M order sorting scan),hshape]
    rfl
  exact iff_of_eq (congrFun₂ hsteps _ result).symm

theorem scanYields_limit (scan : LogicalScan σ) (limit : ℕ) (result : Rows M.Val) :
    ScanYields M order sorting store { scan with limit := some (minLimit scan.limit limit) } result ↔
      ∃ rows, ScanYields M order sorting store scan rows ∧ Limits limit rows result := by
  have hsteps : Comp (Comp (optionally (Filters M) scan.filter)
      (Comp (Shapes M order sorting scan) (optionally Limits scan.limit))) (Limits limit) =
      Comp (optionally (Filters M) scan.filter)
        (Comp (Shapes M order sorting scan) (Limits (minLimit scan.limit limit))) := by
    rw [Relation.comp_assoc,Relation.comp_assoc,limits_limits]
  exact iff_of_eq (congrFun₂ hsteps _ result).symm

theorem scanYields_distinct (horder : scan.orderBy = none) (hlimit : scan.limit = none)
    (result : Rows M.Val) : ScanYields M order sorting store { scan with distinct := true } result ↔
      ∃ rows, ScanYields M order sorting store scan rows ∧ Dedups rows result := by
  have hshape : Comp (Shapes M order sorting scan) Dedups = Shapes M order sorting { scan with distinct := true } := by
    unfold Shapes
    rw [horder,if_pos rfl]
    split_ifs
    · change Comp (Comp _ (Comp _ Eq)) _ = Comp _ (Comp _ Eq)
      rw [Relation.comp_eq,Relation.comp_assoc,dedups_dedups]
    · change Comp (Comp Eq _) _ = Comp _ (Comp _ Eq)
      rw [Relation.eq_comp,Relation.comp_eq]
  have hsteps : Comp (Comp (optionally (Filters M) scan.filter)
      (Comp (Shapes M order sorting scan) (optionally Limits scan.limit))) Dedups =
      Comp (optionally (Filters M) scan.filter)
        (Comp (Shapes M order sorting { scan with distinct := true }) (optionally Limits scan.limit)) := by
    rw [hlimit]
    change Comp (Comp _ (Comp _ Eq)) _ = Comp _ (Comp _ Eq)
    rw [Relation.comp_eq,Relation.comp_eq,Relation.comp_assoc,hshape]
    rfl
  exact iff_of_eq (congrFun₂ hsteps _ result).symm

theorem scanYields_projection (hdistinct : scan.distinct = false)
    (h : projectionCanReplace scan.projection projection) (hknown : Knows (store scan.source) scan.projection)
    (result : Rows M.Val) :
    ScanYields M order sorting store { scan with projection := replaceProjection scan.projection projection } result ↔
      ∃ rows, ScanYields M order sorting store scan rows ∧ Projects projection rows result := by
  have hscan : ∀ projection', Shapes M order sorting { scan with projection := projection' } =
      Comp (optionally (SortsBy order sorting) scan.orderBy) (Projects projection') := by
    intro projection'
    unfold Shapes
    rw [hdistinct,if_neg Bool.false_ne_true]
  have hsteps : Comp (Comp (optionally (Filters M) scan.filter)
      (Comp (Shapes M order sorting scan) (optionally Limits scan.limit))) (Projects projection) =
      Comp (optionally (Filters M) scan.filter) (Comp (optionally (SortsBy order sorting) scan.orderBy)
        (Comp (Comp (Projects scan.projection) (Projects projection)) (optionally Limits scan.limit))) := by
    rw [hscan scan.projection]
    simp only [Relation.comp_assoc,limits_projects]
  refine Iff.trans ?_ (iff_of_eq (congrFun₂ hsteps _ result).symm)
  unfold ScanYields
  rw [hscan,Relation.comp_assoc]
  refine exists_congr fun filtered => and_congr_right fun hfilter => exists_congr fun sorted =>
    and_congr_right fun hsorted => exists_congr fun projected => and_congr_left fun _ => ?_
  have hcolumns : sorted.columns = (store scan.source).columns :=
    (columns_of_sortsBy hsorted).trans (columns_of_filters hfilter)
  exact projects_replace h ((knows_congr hcolumns).mpr hknown) projected

theorem knows_of_scanYields {result : Rows M.Val}
    (h : ScanYields M order sorting store scan result) (hdistinct : scan.distinct = false) :
    Knows (store scan.source) scan.projection := by
  obtain ⟨filtered,hfilter,shaped,hshape,-⟩ := h
  rw [Shapes,hdistinct,if_neg Bool.false_ne_true] at hshape
  obtain ⟨sorted,hsorted,hprojects⟩ := hshape
  have hcolumns : sorted.columns = (store scan.source).columns :=
    (columns_of_sortsBy hsorted).trans (columns_of_filters hfilter)
  exact (knows_congr hcolumns).mp (knows_of_projects hprojects)

theorem yields_optimizeProjection {input : LogicalPlan σ} {first : Rows M.Val}
    (h : Yields M order sorting store (.projection input projection) first) (result : Rows M.Val) :
    Yields M order sorting store (optimizeProjection projection input).plan result ↔
      Yields M order sorting store (.projection input projection) result := by
  unfold optimizeProjection
  split
  · split_ifs with hpush
    · obtain ⟨hdistinct,hreplace⟩ := Bool.and_eq_true_iff.mp hpush
      obtain ⟨rows,hrows,-⟩ := h
      exact scanYields_projection (by simpa using hdistinct) hreplace
        (knows_of_scanYields hrows (by simpa using hdistinct)) result
    · exact Iff.rfl
  · exact Iff.rfl

theorem yields_optimizeFilter (filter : Expr) (input : LogicalPlan σ) (result : Rows M.Val) :
    Yields M order sorting store (optimizeFilter filter input).plan result ↔
      Yields M order sorting store (.filter input filter) result := by
  unfold optimizeFilter
  split
  · split_ifs with hpush
    · obtain ⟨hlimit,hcolumns⟩ := Bool.and_eq_true_iff.mp hpush
      exact scanYields_filter (Option.isNone_iff_eq_none.mp hlimit) hcolumns result
    · exact Iff.rfl
  · exact Iff.rfl

theorem yields_optimizeSort (orderBy : SortKey) (limit : Option ℕ) (input : LogicalPlan σ) (result : Rows M.Val) :
    Yields M order sorting store (optimizeSort orderBy limit input).plan result ↔
      Yields M order sorting store (.sort input orderBy limit) result := by
  unfold optimizeSort
  split
  · split_ifs with hpush
    · obtain ⟨hboth,hcolumns⟩ := Bool.and_eq_true_iff.mp hpush
      obtain ⟨horder,hlimit⟩ := Bool.and_eq_true_iff.mp hboth
      exact scanYields_sort limit (Option.isNone_iff_eq_none.mp horder) (Option.isNone_iff_eq_none.mp hlimit) hcolumns result
    · exact Iff.rfl
  · exact Iff.rfl

theorem minLimit_minLimit (current : Option ℕ) (limit : ℕ) :
    minLimit (some (minLimit current limit)) limit = minLimit current limit := by
  cases current <;> simp [minLimit]

theorem limits_minLimit {α : Type} (current : Option ℕ) (limit : ℕ) :
    Comp (optionally Limits (some (minLimit current limit))) (Limits limit) =
      Comp (optionally Limits current) (Limits (α := α) limit) := by
  rw [limits_limits,limits_limits,minLimit_minLimit]

theorem yields_optimizeLimit (limit : ℕ) (input : LogicalPlan σ) (result : Rows M.Val) :
    Yields M order sorting store (optimizeLimit limit input).plan result ↔
      Yields M order sorting store (.limit input limit) result := by
  unfold optimizeLimit
  split
  · exact scanYields_limit _ limit result
  · rename_i input orderBy sortLimit
    have hlimits := congrArg (Comp (SortsBy order sorting orderBy)) (limits_minLimit (α := M.Val) sortLimit limit)
    rw [← Relation.comp_assoc,← Relation.comp_assoc] at hlimits
    constructor
    · rintro ⟨rows,⟨first,hfirst,hsort⟩,hlimit⟩
      obtain ⟨rows',hsort',hlimit'⟩ := (congrFun₂ hlimits first result).mp ⟨rows,hsort,hlimit⟩
      exact ⟨rows',⟨first,hfirst,hsort'⟩,hlimit'⟩
    · rintro ⟨rows,⟨first,hfirst,hsort⟩,hlimit⟩
      obtain ⟨rows',hsort',hlimit'⟩ := (congrFun₂ hlimits first result).mpr ⟨rows,hsort,hlimit⟩
      exact ⟨rows',⟨first,hfirst,hsort'⟩,hlimit'⟩
  · exact Iff.rfl

theorem yields_optimizeDistinct (input : LogicalPlan σ) (result : Rows M.Val) :
    Yields M order sorting store (optimizeDistinct input).plan result ↔
      Yields M order sorting store (.distinct input) result := by
  unfold optimizeDistinct
  split
  · split_ifs with hpush
    · obtain ⟨hlimit,horder⟩ := Bool.and_eq_true_iff.mp hpush
      exact scanYields_distinct (Option.isNone_iff_eq_none.mp horder) (Option.isNone_iff_eq_none.mp hlimit) result
    · exact Iff.rfl
  · exact Iff.rfl

theorem yields_filter_filter (input : LogicalPlan σ) (first filter : Expr) (result : Rows M.Val) :
    Yields M order sorting store (.filter input (.and first filter)) result ↔
      Yields M order sorting store (.filter (.filter input first) filter) result := by
  constructor
  · rintro ⟨rows,hrows,hfilter⟩
    obtain ⟨rows',hfirst,hsecond⟩ := (congrFun₂ (filters_filters first filter) rows result).mpr hfilter
    exact ⟨rows',⟨rows,hrows,hfirst⟩,hsecond⟩
  · rintro ⟨rows',⟨rows,hrows,hfirst⟩,hsecond⟩
    exact ⟨rows,hrows,(congrFun₂ (filters_filters first filter) rows result).mp ⟨rows',hfirst,hsecond⟩⟩

/-- A plan that has a result keeps its results when it is optimised. -/
theorem optimizeLogicalNode_yields (plan : LogicalPlan σ) {first : Rows M.Val} (h : Yields M order sorting store plan first) :
    ∀ result, Yields M order sorting store (optimizeLogicalNode plan).1.plan result ↔
      Yields M order sorting store plan result := by
  induction plan using optimizeLogicalNode.induct generalizing first with
  | case1 scan =>
    intro result
    rw [optimizeLogicalNode]
  | case2 input projection ih =>
    obtain ⟨rows,hrows,hprojects⟩ := h
    have hinput := ih hrows
    intro result
    rw [optimizeLogicalNode]
    have hfirst : Yields M order sorting store (.projection (optimizeLogicalNode input).1.plan projection) first :=
      ⟨rows,(hinput rows).mpr hrows,hprojects⟩
    refine (yields_optimizeProjection hfirst result).trans ?_
    exact exists_congr fun rows => and_congr_left fun _ => hinput rows
  | case3 input filter optimized inner first' hinner _ ih =>
    rename_i ihagain
    obtain ⟨rows,hrows,hfilter⟩ := h
    have hinput := ih hrows
    rw [hinner] at hinput
    have htwice : ∀ result, Yields M order sorting store (.filter inner (.and first' filter)) result ↔
        Yields M order sorting store (.filter input filter) result := fun result =>
      (yields_filter_filter inner first' filter result).trans
        (exists_congr fun rows' => and_congr_left fun _ => hinput rows')
    intro result
    rw [optimizeLogicalNode]
    split
    · rename_i inner' again hsame
      obtain ⟨rfl,rfl⟩ := LogicalPlan.filter.inj (hinner.symm.trans hsame)
      exact (ihagain ((htwice first).mpr ⟨rows,hrows,hfilter⟩) result).trans (htwice result)
    · rename_i hno
      exact (hno inner first' hinner).elim
  | case4 input filter optimized hno =>
    rename_i ih
    obtain ⟨rows,hrows,hfilter⟩ := h
    have hinput := ih hrows
    intro result
    rw [optimizeLogicalNode]
    split
    · rename_i inner first' hsame
      exact (hno inner first' hsame).elim
    · refine (yields_optimizeFilter filter _ result).trans ?_
      exact exists_congr fun rows => and_congr_left fun _ => hinput rows
  | case5 input orderBy limit ih =>
    obtain ⟨rows,hrows,hsort⟩ := h
    have hinput := ih hrows
    intro result
    rw [optimizeLogicalNode]
    refine (yields_optimizeSort orderBy limit _ result).trans ?_
    exact exists_congr fun rows => and_congr_left fun _ => hinput rows
  | case6 input limit ih =>
    obtain ⟨rows,hrows,hlimit⟩ := h
    have hinput := ih hrows
    intro result
    rw [optimizeLogicalNode]
    refine (yields_optimizeLimit limit _ result).trans ?_
    exact exists_congr fun rows => and_congr_left fun _ => hinput rows
  | case7 input ih =>
    obtain ⟨rows,hrows,hdedup⟩ := h
    have hinput := ih hrows
    intro result
    rw [optimizeLogicalNode]
    refine (yields_optimizeDistinct _ result).trans ?_
    exact exists_congr fun rows => and_congr_left fun _ => hinput rows

end Rules
section Names
variable {σ : Type*}

def NoRepeat : Projection → Prop
  | .all => True
  | .columns columns => columns.Nodup

def LogicalPlan.NamesOnce : LogicalPlan σ → Prop
  | .tableScan scan => NoRepeat scan.projection
  | .projection input output => input.NamesOnce ∧ NoRepeat output
  | .filter input _ | .sort input _ _ | .limit input _ | .distinct input => input.NamesOnce

theorem noRepeat_replaceProjection {scan output : Projection} (hscan : NoRepeat scan) (houtput : NoRepeat output) :
    NoRepeat (replaceProjection scan output) := by
  cases output with
  | all => exact hscan
  | columns output => exact houtput

theorem namesOnce_optimizeLogicalNode (plan : LogicalPlan σ) (h : plan.NamesOnce) :
    (optimizeLogicalNode plan).1.plan.NamesOnce := by
  induction plan using optimizeLogicalNode.induct with
  | case1 scan =>
    rw [optimizeLogicalNode]
    exact h
  | case2 input projection ih =>
    rw [optimizeLogicalNode]
    have hinput := ih h.1
    change (optimizeProjection projection _).plan.NamesOnce
    unfold optimizeProjection
    split
    · rename_i scan hscan
      rw [hscan] at hinput
      split_ifs
      · exact noRepeat_replaceProjection hinput h.2
      · exact ⟨hinput,h.2⟩
    · exact ⟨hinput,h.2⟩
  | case3 input filter optimized inner first hinner _ ih =>
    rename_i ihagain
    have hinput := ih h
    rw [hinner] at hinput
    rw [optimizeLogicalNode]
    split
    · rename_i inner' first' hsame
      obtain ⟨rfl,rfl⟩ := LogicalPlan.filter.inj (hinner.symm.trans hsame)
      exact ihagain hinput
    · rename_i hno
      exact (hno inner first hinner).elim
  | case4 input filter optimized hno =>
    rename_i ih
    have hinput := ih h
    rw [optimizeLogicalNode]
    split
    · rename_i inner first hsame
      exact (hno inner first hsame).elim
    · change (optimizeFilter filter _).plan.NamesOnce
      unfold optimizeFilter
      split
      · rename_i scan hscan
        rw [hscan] at hinput
        split_ifs <;> exact hinput
      · exact hinput
  | case5 input orderBy limit ih =>
    rw [optimizeLogicalNode]
    have hinput := ih h
    change (optimizeSort orderBy limit _).plan.NamesOnce
    unfold optimizeSort
    split
    · rename_i scan hscan
      rw [hscan] at hinput
      split_ifs <;> exact hinput
    · exact hinput
  | case6 input limit ih =>
    rw [optimizeLogicalNode]
    have hinput := ih h
    change (optimizeLimit limit _).plan.NamesOnce
    unfold optimizeLimit
    split
    · rename_i scan hscan
      rw [hscan] at hinput
      exact hinput
    · rename_i inner orderBy sortLimit hsort
      rw [hsort] at hinput
      exact hinput
    · exact hinput
  | case7 input ih =>
    rw [optimizeLogicalNode]
    have hinput := ih h
    change (optimizeDistinct _).plan.NamesOnce
    unfold optimizeDistinct
    split
    · rename_i scan hscan
      rw [hscan] at hinput
      split_ifs <;> exact hinput
    · exact hinput

end Names
section Again
variable {σ : Type*} {input : LogicalPlan σ}

/-- Rewriting leaves the plan as it is. -/
def LogicalPlan.Optimised (plan : LogicalPlan σ) : Prop := (optimizeLogicalNode plan).1.plan = plan

/-- An arm that gives a scan or its own node is done after one pass. -/
theorem optimised_arm (arm : LogicalPlan σ → OptimizedLogicalPlan σ) (node : LogicalPlan σ → LogicalPlan σ) (hinput : input.Optimised)
    (hnode : (optimizeLogicalNode (node input)).1.plan = (arm (optimizeLogicalNode input).1.plan).plan)
    (harm : (∃ scan, (arm input).plan = .tableScan scan) ∨ (arm input).plan = node input) : (arm input).plan.Optimised := by
  rcases harm with ⟨scan,h⟩ | h
  · rw [h,LogicalPlan.Optimised,optimizeLogicalNode]
  · unfold LogicalPlan.Optimised at hinput
    rw [h,LogicalPlan.Optimised,hnode,hinput,h]

/-- Whether a sort goes into a scan does not depend on its limit. -/
theorem LogicalPlan.Optimised.sort_limit {orderBy : SortKey} {limit : Option ℕ} (h : (LogicalPlan.sort input orderBy limit).Optimised)
    (limit' : Option ℕ) : (LogicalPlan.sort input orderBy limit').Optimised := by
  rw [LogicalPlan.Optimised,optimizeLogicalNode] at h ⊢
  simp only [OptimizedLogicalPlan.after] at h ⊢
  unfold optimizeSort at h ⊢
  cases hinput : (optimizeLogicalNode input).1.plan with
  | tableScan scan =>
    simp only [hinput] at h ⊢
    split_ifs at h ⊢
    cases h
    rfl
  | _ =>
    rw [hinput] at h
    cases h
    rfl

theorem optimised_optimizeLogicalNode (plan : LogicalPlan σ) : (optimizeLogicalNode plan).1.plan.Optimised := by
  induction plan using optimizeLogicalNode.induct with
  | case1 scan => rw [optimizeLogicalNode,LogicalPlan.Optimised,optimizeLogicalNode]
  | case2 input projection ih =>
    rw [optimizeLogicalNode]
    refine optimised_arm (optimizeProjection projection) (.projection · projection) ih (by rw [optimizeLogicalNode]; rfl) ?_
    unfold optimizeProjection
    split
    · split_ifs <;> simp [*]
    · simp
  | case3 input filter optimized inner first hinner _ ih ihagain =>
    rw [optimizeLogicalNode]
    split
    · rename_i inner' first' hsame
      obtain ⟨rfl,rfl⟩ := LogicalPlan.filter.inj (hinner.symm.trans hsame)
      exact ihagain
    · rename_i hno
      exact (hno inner first hinner).elim
  | case4 input filter optimized hno ih =>
    rw [optimizeLogicalNode]
    split
    · rename_i inner first hsame
      exact (hno inner first hsame).elim
    · refine optimised_arm (optimizeFilter filter) (.filter · filter) ih ?_ ?_
      · rw [optimizeLogicalNode]
        split
        · rename_i inner first hsame
          exact (hno inner first (ih.symm.trans hsame)).elim
        · rfl
      · unfold optimizeFilter
        split
        · split_ifs <;> simp [*]
        · simp
  | case5 input orderBy limit ih =>
    rw [optimizeLogicalNode]
    refine optimised_arm (optimizeSort orderBy limit) (.sort · orderBy limit) ih (by rw [optimizeLogicalNode]; rfl) ?_
    unfold optimizeSort
    split
    · split_ifs <;> simp [*]
    · simp
  | case6 input limit ih =>
    have hlimit (plan : LogicalPlan σ) : (optimizeLogicalNode (.limit plan limit)).1.plan =
        (optimizeLimit limit (optimizeLogicalNode plan).1.plan).plan := by
      rw [optimizeLogicalNode]
      rfl
    rw [hlimit]
    generalize (optimizeLogicalNode input).1.plan = optimized at ih
    cases optimized with
    | sort inner orderBy sortLimit =>
      -- the sort has the smaller limit already
      have hsort := ih.sort_limit (some (minLimit sortLimit limit))
      unfold LogicalPlan.Optimised at hsort ⊢
      rw [optimizeLimit,hlimit,hsort,optimizeLimit,minLimit_minLimit]
    | _ => exact optimised_arm (optimizeLimit limit) (.limit · limit) ih (hlimit _) (by simp [optimizeLimit])
  | case7 input ih =>
    rw [optimizeLogicalNode]
    refine optimised_arm optimizeDistinct .distinct ih (by rw [optimizeLogicalNode]; rfl) ?_
    unfold optimizeDistinct
    split
    · split_ifs <;> simp [*]
    · simp

/-- Optimising an optimised plan changes nothing. -/
theorem optimize_again (plan : LogicalPlan σ) : (optimize (optimize plan).plan).plan = (optimize plan).plan :=
  optimised_optimizeLogicalNode plan

end Again
end Dodam.Plan
