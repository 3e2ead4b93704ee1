import Dodam.Foundation.Relation
import Dodam.Optimizer.JoinInputs

/-! # Logical plans over one table

A plan is a scan under filters, projections, sorts, limits and duplicate eliminations.
-/
namespace Dodam.Plan
open Foundation Execution Storage Optimizer Sql

deriving instance DecidableEq for Projection

structure LogicalScan (σ : Type*) where
  source : σ
  projection : Projection
  filter : Option Expr
  orderBy : Option SortKey
  limit : Option ℕ
  distinct : Bool

inductive LogicalPlan (σ : Type*)
  | tableScan (scan : LogicalScan σ)
  | projection (input : LogicalPlan σ) (projection : Projection)
  | filter (input : LogicalPlan σ) (filter : Expr)
  | sort (input : LogicalPlan σ) (orderBy : SortKey) (limit : Option ℕ)
  | limit (input : LogicalPlan σ) (limit : ℕ)
  | distinct (input : LogicalPlan σ)

def projectionCanReplace : Projection → Projection → Bool
  | _,.all | .all,.columns _ => true
  | .columns scan,.columns output => output.all (· ∈ scan)

def projectionContainsColumns (projection : Projection) (required : List String) : Bool :=
  match projection with
  | .all => true
  | .columns columns => required.all (· ∈ columns)

def replaceProjection (scan : Projection) : Projection → Projection
  | .all => scan
  | output => output

def combineFilterExprs : Option Expr → Option Expr → Option Expr
  | none,none => none
  | some filter,none | none,some filter => some filter
  | some left,some right => some (.and left right)

def sortColumns (orderBy : SortKey) : List String := orderBy.expressions.map SortExpr.column

def minLimit (current : Option ℕ) (limit : ℕ) : ℕ := current.elim limit (min · limit)

structure ValueOrder (α : Type*) where
  compare : α → α → Ordering
  trans : Std.TransCmp compare

section Order
variable {α : Type*} (order : ValueOrder α)

def compareCells (expr : SortExpr) : Option α → Option α → Ordering
  | none,none => .eq
  | none,some _ => if expr.nullsFirst then .lt else .gt
  | some _,none => if expr.nullsFirst then .gt else .lt
  | some x,some y => if expr.descending then order.compare y x else order.compare x y

/-- The comparison of two rows by the first key that tells them apart. -/
def compareRows : List SortExpr → CellRow α → CellRow α → Ordering
  | [],_,_ => .eq
  | expr :: rest,x,y => (compareCells order expr (x expr.column) (y expr.column)).then (compareRows rest x y)

def rowLe (orderBy : SortKey) (x y : CellRow α) : Bool := (compareRows order orderBy.expressions x y).isLE

theorem directed_trans (descending : Bool) :
    Std.TransCmp fun x y => if descending then order.compare y x else order.compare x y := by
  have := order.trans
  cases descending with
  | true => simpa using @Std.TransCmp.opposite _ order.compare _
  | false => simpa using order.trans

theorem compareCells_trans (expr : SortExpr) : Std.TransCmp (compareCells order expr) := by
  have hvalues := directed_trans order expr.descending
  refine @Std.TransCmp.mk _ _ ⟨fun {x y} => ?_⟩ fun {x y z} => ?_
  · cases x <;> cases y
    · rfl
    · cases h : expr.nullsFirst <;> simp [compareCells,h]
    · cases h : expr.nullsFirst <;> simp [compareCells,h]
    · exact hvalues.eq_swap
  · cases x <;> cases y <;> cases z
    case some.some.some => exact hvalues.isLE_trans
    all_goals cases h : expr.nullsFirst <;> simp [compareCells,h]

theorem compareRows_trans (exprs : List SortExpr) : Std.TransCmp (compareRows order exprs) := by
  induction exprs with
  | nil => exact @Std.TransCmp.mk _ _ ⟨rfl⟩ fun _ _ => rfl
  | cons expr rest ih =>
    have hcells := compareCells_trans order expr
    have hfirst : Std.TransCmp fun x y : CellRow α => compareCells order expr (x expr.column) (y expr.column) :=
      @Std.TransCmp.mk _ _ ⟨hcells.eq_swap⟩ hcells.isLE_trans
    exact inferInstanceAs (Std.TransCmp
      (compareLex (fun x y : CellRow α => compareCells order expr (x expr.column) (y expr.column)) (compareRows order rest)))

theorem rowLe_ranking (orderBy : SortKey) : IsRanking (rowLe order orderBy) := by
  have htrans := compareRows_trans order orderBy.expressions
  constructor
  · intro x y
    unfold rowLe
    rw [htrans.eq_swap (a := y)]
    cases compareRows order orderBy.expressions x y <;> simp
  · exact fun x y z => htrans.isLE_trans

theorem compareRows_congr {exprs : List SortExpr} {x x' y y' : CellRow α}
    (hx : ∀ expr ∈ exprs, x expr.column = x' expr.column) (hy : ∀ expr ∈ exprs, y expr.column = y' expr.column) :
    compareRows order exprs x y = compareRows order exprs x' y' := by
  induction exprs with
  | nil => rfl
  | cons expr rest ih =>
    rw [List.forall_mem_cons] at hx hy
    rw [compareRows,compareRows,hx.1,hy.1,ih hx.2 hy.2]

theorem rowLe_dependsOn (orderBy : SortKey) {columns : List String} (h : sortColumns orderBy ⊆ columns)
    (cells : CellRow α) :
    DependsOn (rowLe order orderBy cells) {c | c ∈ columns} ∧ DependsOn (rowLe order orderBy · cells) {c | c ∈ columns} := by
  have hcolumns : ∀ expr ∈ orderBy.expressions, expr.column ∈ columns :=
    fun expr hexpr => h (List.mem_map.mpr ⟨expr,hexpr,rfl⟩)
  constructor
  · intro x y hxy
    exact congrArg Ordering.isLE (compareRows_congr order (fun _ _ => rfl) fun expr hexpr => hxy _ (hcolumns expr hexpr))
  · intro x y hxy
    exact congrArg Ordering.isLE (compareRows_congr order (fun expr hexpr => hxy _ (hcolumns expr hexpr)) fun _ _ => rfl)

end Order

abbrev Rows (α : Type) := Relation String (Option α)

section Steps
variable {α : Type}

def Projects : Projection → Rows α → Rows α → Prop
  | .all,input,output => input = output
  | .columns columns,input,output => columns ⊆ input.columns ∧ output = input.project columns

def SortsBy (order : ValueOrder α) (sorting : Arrangement) (orderBy : SortKey) (input output : Rows α) : Prop :=
  sortColumns orderBy ⊆ input.columns ∧ input.Sorted sorting (rowLe order orderBy) output

def Limits (limit : ℕ) (input output : Rows α) : Prop := output = input.take limit

def Dedups [DecidableEq α] (input output : Rows α) : Prop := output = input.distinct

def optionally {β : Type*} (step : β → Rows α → Rows α → Prop) : Option β → Rows α → Rows α → Prop
  | none => Eq
  | some x => step x

variable {floats : Floats} {ρ : Type*} (M : Meaning floats ρ)

def passes (filter : Expr) (cells : CellRow M.Val) : Bool := (cellMeaning M).filter cells filter = some true

def Filters (filter : Expr) (input output : Rows M.Val) : Prop :=
  exprReferencedColumns filter ⊆ input.columns ∧ output = input.filter (passes M filter)

/-- The rows that a scan reads: it may skip some on which a predicate is not true. -/
def Reads (predicates : List Expr) (input output : Rows M.Val) : Prop :=
  output.columns = input.columns ∧ output.rows.Sublist input.rows ∧
    output.filter (fun cells => predicates.all (passes M · cells)) =
      input.filter fun cells => predicates.all (passes M · cells)

end Steps
section Results
variable {floats : Floats} {ρ : Type*} (M : Meaning floats ρ) [DecidableEq M.Val]
variable (order : ValueOrder M.Val) (sorting : Arrangement) {σ : Type*} (store : σ → Rows M.Val)

open Relation (Comp)

/-- What a scan makes of the rows that its filter keeps. -/
def Shapes (scan : LogicalScan σ) : Rows M.Val → Rows M.Val → Prop :=
  if scan.distinct then
    Comp (Projects scan.projection) (Comp Dedups (optionally (SortsBy order sorting) scan.orderBy))
  else Comp (optionally (SortsBy order sorting) scan.orderBy) (Projects scan.projection)

def ScanYields (scan : LogicalScan σ) (result : Rows M.Val) : Prop :=
  Comp (optionally (Filters M) scan.filter) (Comp (Shapes M order sorting scan) (optionally Limits scan.limit))
    (store scan.source) result

def Yields : LogicalPlan σ → Rows M.Val → Prop
  | .tableScan scan,result => ScanYields M order sorting store scan result
  | .projection input projection,result => ∃ rows, Yields input rows ∧ Projects projection rows result
  | .filter input filter,result => ∃ rows, Yields input rows ∧ Filters M filter rows result
  | .sort input orderBy limit,result =>
    ∃ rows, Yields input rows ∧ Comp (SortsBy order sorting orderBy) (optionally Limits limit) rows result
  | .limit input limit,result => ∃ rows, Yields input rows ∧ Limits limit rows result
  | .distinct input,result => ∃ rows, Yields input rows ∧ Dedups rows result

end Results
section Laws
variable {floats : Floats} {ρ : Type*} {M : Meaning floats ρ}
variable {order : ValueOrder M.Val} {sorting : Arrangement}

open Relation (Comp)

theorem comp_eq_comp {α : Type} {R S R' S' : Rows α → Rows α → Prop}
    (h : ∀ a b c, R a b → S b c → ∃ b', R' a b' ∧ S' b' c) (h' : ∀ a b c, R' a b → S' b c → ∃ b', R a b' ∧ S b' c) :
    Comp R S = Comp R' S' := by
  funext a c
  exact propext ⟨fun ⟨b,hr,hs⟩ => h a b c hr hs,fun ⟨b,hr,hs⟩ => h' a b c hr hs⟩

theorem passes_and (left right : Expr) (cells : CellRow M.Val) :
    passes M (.and left right) cells = (passes M left cells && passes M right cells) := by
  unfold passes
  rw [Meaning.filter]
  cases (cellMeaning M).filter cells left with
  | none => cases (cellMeaning M).filter cells right with
    | none => rfl
    | some r => cases r <;> rfl
  | some l => cases (cellMeaning M).filter cells right with
    | none => cases l <;> rfl
    | some r => cases l <;> cases r <;> rfl

variable {columns : List String} {projection : Projection} {input output : Rows M.Val}

theorem passes_dependsOn {filter : Expr} (h : exprReferencedColumns filter ⊆ columns) :
    DependsOn (passes M filter) {c | c ∈ columns} := by
  intro x y hxy
  rw [passes,passes,filter_congr_columns M fun column hcolumn => hxy column (h hcolumn)]

theorem exprReferencedColumns_and_subset {left right : Expr} :
    exprReferencedColumns (.and left right) ⊆ columns ↔
      exprReferencedColumns left ⊆ columns ∧ exprReferencedColumns right ⊆ columns := by
  constructor
  · intro h
    exact ⟨fun c hc => h (mem_exprReferencedColumns_and.mpr (.inl hc)),
      fun c hc => h (mem_exprReferencedColumns_and.mpr (.inr hc))⟩
  · rintro ⟨hleft,hright⟩ c hc
    exact (mem_exprReferencedColumns_and.mp hc).elim (hleft ·) (hright ·)

theorem filters_filters (left right : Expr) :
    Comp (Filters M left) (Filters M right) = Filters M (.and left right) := by
  have hand : passes M (.and left right) = fun cells => passes M left cells && passes M right cells :=
    funext (passes_and left right)
  funext input output
  apply propext
  constructor
  · rintro ⟨_,⟨hleft,rfl⟩,hright,rfl⟩
    exact ⟨exprReferencedColumns_and_subset.mpr ⟨hleft,hright⟩,by rw [hand,Relation.filter_filter]⟩
  · rintro ⟨hknown,rfl⟩
    obtain ⟨hleft,hright⟩ := exprReferencedColumns_and_subset.mp hknown
    exact ⟨_,⟨hleft,rfl⟩,hright,by rw [hand,Relation.filter_filter]⟩

theorem optionally_filters_filters (first : Option Expr) (filter : Expr) :
    Comp (optionally (Filters M) first) (Filters M filter) =
      optionally (Filters M) (combineFilterExprs first (some filter)) := by
  cases first with
  | none => exact Relation.eq_comp
  | some first => exact filters_filters first filter

theorem projectionContainsColumns_iff {required : List String} :
    projectionContainsColumns (.columns columns) required = true ↔ required ⊆ columns := by
  simp [projectionContainsColumns,List.subset_def]

theorem projects_filters {filter : Expr}
    (h : projectionContainsColumns projection (exprReferencedColumns filter)) :
    Comp (Projects projection) (Filters M filter) = Comp (Filters M filter) (Projects projection) := by
  cases projection with
  | all => exact Relation.eq_comp.trans Relation.comp_eq.symm
  | columns columns =>
    have hcolumns := projectionContainsColumns_iff.mp h
    have hfilter := passes_dependsOn (M := M) hcolumns
    apply comp_eq_comp
    · rintro a _ _ ⟨hknown,rfl⟩ ⟨-,rfl⟩
      exact ⟨_,⟨List.Subset.trans hcolumns hknown,rfl⟩,hknown,Relation.filter_project hfilter⟩
    · rintro a _ _ ⟨-,rfl⟩ ⟨hknown,rfl⟩
      exact ⟨_,⟨hknown,rfl⟩,hcolumns,(Relation.filter_project hfilter).symm⟩

theorem sortsBy_filters (orderBy : SortKey) (filter : Expr) :
    Comp (SortsBy order sorting orderBy) (Filters M filter) = Comp (Filters M filter) (SortsBy order sorting orderBy) := by
  have hle := rowLe_ranking order orderBy
  apply comp_eq_comp
  · rintro a b _ ⟨hkeys,hsorted⟩ ⟨hknown,rfl⟩
    rw [hsorted.1] at hknown
    exact ⟨_,⟨hknown,rfl⟩,hkeys,(Relation.sorted_filter hle).mpr ⟨b,hsorted,rfl⟩⟩
  · rintro a _ c ⟨hknown,rfl⟩ ⟨hkeys,hsorted⟩
    obtain ⟨b,hb,rfl⟩ := (Relation.sorted_filter hle).mp hsorted
    exact ⟨b,⟨hkeys,hb⟩,hb.1 ▸ hknown,rfl⟩

theorem optionally_sortsBy_filters (orderBy : Option SortKey) (filter : Expr) :
    Comp (optionally (SortsBy order sorting) orderBy) (Filters M filter) =
      Comp (Filters M filter) (optionally (SortsBy order sorting) orderBy) := by
  cases orderBy with
  | none => exact Relation.eq_comp.trans Relation.comp_eq.symm
  | some orderBy => exact sortsBy_filters orderBy filter

theorem projects_sortsBy {orderBy : SortKey}
    (h : projectionContainsColumns projection (sortColumns orderBy)) :
    Comp (Projects projection) (SortsBy order sorting orderBy) =
      Comp (SortsBy order sorting orderBy) (Projects projection) := by
  cases projection with
  | all => exact Relation.eq_comp.trans Relation.comp_eq.symm
  | columns columns =>
    have hcolumns := projectionContainsColumns_iff.mp h
    have hle := rowLe_dependsOn order orderBy hcolumns
    apply comp_eq_comp
    · rintro a _ c ⟨hknown,rfl⟩ ⟨-,hsorted⟩
      obtain ⟨b,hb,rfl⟩ := (Relation.sorted_project hle).mp hsorted
      exact ⟨b,⟨List.Subset.trans hcolumns hknown,hb⟩,hb.1 ▸ hknown,rfl⟩
    · rintro a b _ ⟨-,hsorted⟩ ⟨hknown,rfl⟩
      rw [hsorted.1] at hknown
      exact ⟨_,⟨hknown,rfl⟩,hcolumns,(Relation.sorted_project hle).mpr ⟨b,hsorted,rfl⟩⟩

theorem limits_projects {α : Type} (limit : Option ℕ) (projection : Projection) :
    Comp (optionally Limits limit) (Projects (α := α) projection) = Comp (Projects projection) (optionally Limits limit) := by
  cases limit with
  | none => exact Relation.eq_comp.trans Relation.comp_eq.symm
  | some limit =>
    cases projection with
    | all => exact Relation.comp_eq.trans Relation.eq_comp.symm
    | columns columns =>
      apply comp_eq_comp
      · rintro a _ _ rfl ⟨hknown,rfl⟩
        exact ⟨_,⟨hknown,rfl⟩,Relation.project_take limit⟩
      · rintro a _ _ ⟨hknown,rfl⟩ rfl
        exact ⟨_,rfl,hknown,(Relation.project_take limit).symm⟩

theorem limits_limits {α : Type} (first : Option ℕ) (limit : ℕ) :
    Comp (optionally Limits first) (Limits limit) = Limits (α := α) (minLimit first limit) := by
  funext input output
  apply propext
  cases first with
  | none => exact ⟨fun ⟨_,h,h'⟩ => h ▸ h',fun h => ⟨input,rfl,h⟩⟩
  | some first =>
    constructor
    · rintro ⟨_,rfl,rfl⟩
      exact (Relation.take_take input limit first).trans (by rw [min_comm]; rfl)
    · rintro rfl
      exact ⟨_,rfl,((Relation.take_take input limit first).trans (by rw [min_comm]; rfl)).symm⟩

def Knows (rows : Rows M.Val) : Projection → Prop
  | .all => True
  | .columns columns => columns ⊆ rows.columns

theorem columns_of_filters {filter : Option Expr}
    (h : optionally (Filters M) filter input output) : output.columns = input.columns := by
  cases filter with
  | none => exact congrArg Relation.columns h.symm
  | some filter =>
    rw [h.2]
    rfl

theorem columns_of_sortsBy {orderBy : Option SortKey}
    (h : optionally (SortsBy order sorting) orderBy input output) : output.columns = input.columns := by
  cases orderBy with
  | none => exact congrArg Relation.columns h.symm
  | some orderBy => exact h.2.1

theorem knows_of_projects (h : Projects projection input output) : Knows input projection := by
  cases projection with
  | all => trivial
  | columns columns => exact h.1

theorem knows_congr {rows rows' : Rows M.Val} (h : rows.columns = rows'.columns) :
    Knows rows projection ↔ Knows rows' projection := by
  cases projection with
  | all => exact Iff.rfl
  | columns columns => exact iff_of_eq (congrArg (columns ⊆ ·) h)

variable [DecidableEq M.Val]

theorem dedups_filters (filter : Expr) : Comp Dedups (Filters M filter) = Comp (Filters M filter) Dedups := by
  apply comp_eq_comp
  · rintro a _ _ rfl ⟨hknown,rfl⟩
    exact ⟨_,⟨hknown,rfl⟩,Relation.filter_distinct⟩
  · rintro a _ _ ⟨hknown,rfl⟩ rfl
    exact ⟨_,rfl,hknown,Relation.filter_distinct.symm⟩

theorem dedups_dedups {α : Type} [DecidableEq α] : Comp Dedups Dedups = Dedups (α := α) := by
  funext input output
  exact propext ⟨fun ⟨_,h,h'⟩ => by rw [Dedups,h',h,Relation.distinct_distinct],
    fun h => ⟨_,rfl,by rw [Dedups,h,Relation.distinct_distinct]⟩⟩

end Laws
section Unique
variable {α : Type}

end Unique
section Stable
variable {floats : Floats} {ρ : Type*} (M : Meaning floats ρ) [DecidableEq M.Val]
variable (order : ValueOrder M.Val) {σ : Type*} (store : σ → Rows M.Val)

end Stable
end Dodam.Plan
