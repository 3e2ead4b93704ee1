import Dodam.Foundation.ThetaJoin
import Dodam.Sql.Meaning
import Dodam.Storage.Table

/-! # The inputs of a join

What a join reads of its two inputs: the columns that the keys, the projection,
the filter and the order need of each side, and for each side a filter that is
derived from the parts of the query's filter on that side alone.
-/
namespace Dodam.Optimizer
open Execution Storage

structure SortExpr where
  column : String
  descending : Bool
  nullsFirst : Bool
deriving DecidableEq

structure SortKey where
  expressions : List SortExpr

/-- The name of a column without the alias in front of it. -/
def stripJoinPrefix (column side : String) : Option String :=
  (column.toList.dropPrefix? side.toList).bind fun rest =>
    match rest with
    | '.' :: name => some (String.ofList name)
    | _ => none

def addColumnOnce (columns : List String) (column : String) : List String :=
  if column ∈ columns then columns else columns ++ [column]

def collectExprReferencedColumns : Expr → List String → List String
  | .boolean _,columns => columns
  | .comparison comparison,columns => addColumnOnce columns comparison.column
  | .columnComparison left _ right,columns => addColumnOnce (addColumnOnce columns left) right
  | .inList column _ _ _,columns | .isNull column _,columns => addColumnOnce columns column
  | .like like,columns => addColumnOnce columns like.column
  | .not expr,columns => collectExprReferencedColumns expr columns
  | .and left right,columns | .or left right,columns =>
    collectExprReferencedColumns right (collectExprReferencedColumns left columns)

def exprReferencedColumns (expr : Expr) : List String := collectExprReferencedColumns expr []

def rewriteJoinSideExpr (side : String) : Expr → Expr
  | .boolean value => .boolean value
  | .comparison comparison =>
    .comparison { comparison with column := (stripJoinPrefix comparison.column side).getD comparison.column }
  | .columnComparison left op right =>
    .columnComparison ((stripJoinPrefix left side).getD left) op ((stripJoinPrefix right side).getD right)
  | .inList column values negated hasNull =>
    .inList ((stripJoinPrefix column side).getD column) values negated hasNull
  | .like like => .like { like with column := (stripJoinPrefix like.column side).getD like.column }
  | .isNull column negated => .isNull ((stripJoinPrefix column side).getD column) negated
  | .not expr => .not (rewriteJoinSideExpr side expr)
  | .and left right => .and (rewriteJoinSideExpr side left) (rewriteJoinSideExpr side right)
  | .or left right => .or (rewriteJoinSideExpr side left) (rewriteJoinSideExpr side right)

def OnSide (side : String) (expr : Expr) : Prop :=
  exprReferencedColumns expr ≠ [] ∧ ∀ column ∈ exprReferencedColumns expr, (stripJoinPrefix column side).isSome

instance (side : String) (expr : Expr) : Decidable (OnSide side expr) := inferInstanceAs (Decidable (_ ∧ _))

/-- `combine_optional_filters`, for a conjunction. -/
def combineOptionalFilters (left right : Option Expr) : Option Expr :=
  match left,right with
  | none,none => none
  | some expr,none | none,some expr => some expr
  | some left,some right => some (.and left right)

def deriveJoinSideFilter (side : String) : Expr → Option Expr
  | .and left right =>
    if OnSide side (.and left right) then some (rewriteJoinSideExpr side (.and left right))
    else combineOptionalFilters (deriveJoinSideFilter side left) (deriveJoinSideFilter side right)
  | .or left right =>
    if OnSide side (.or left right) then some (rewriteJoinSideExpr side (.or left right))
    else do
      let left ← deriveJoinSideFilter side left
      let right ← deriveJoinSideFilter side right
      return .or left right
  | expr => if OnSide side expr then some (rewriteJoinSideExpr side expr) else none

def addJoinSideColumn (side : String) (columns : List String) (qualifiedColumn : String) : List String :=
  match stripJoinPrefix qualifiedColumn side with
  | some column => addColumnOnce columns column
  | none => columns

def joinSideProjection (projection : Projection) (filter : Option Expr) (orderBy : Option SortKey) (side : String)
    (joinKeys : List String) : Projection :=
  match projection with
  | .all => .all
  | .columns columns =>
    let sideColumns := joinKeys.foldl addColumnOnce []
    let sideColumns := columns.foldl (addJoinSideColumn side) sideColumns
    let sideColumns := (filter.elim [] exprReferencedColumns).foldl (addJoinSideColumn side) sideColumns
    let sortColumns := orderBy.elim [] fun orderBy => orderBy.expressions.map SortExpr.column
    .columns (sortColumns.foldl (addJoinSideColumn side) sideColumns)

structure JoinInputPlan where
  leftProjection : Projection
  rightProjection : Projection
  leftFilter : Option Expr
  rightFilter : Option Expr

def planJoinInputs (projection : Projection) (filter : Option Expr) (orderBy : Option SortKey) (leftAlias : String)
    (leftKeys : List String) (rightAlias : String) (rightKeys : List String) : JoinInputPlan where
  leftProjection := joinSideProjection projection filter orderBy leftAlias leftKeys
  rightProjection := joinSideProjection projection filter orderBy rightAlias rightKeys
  leftFilter := filter.bind (deriveJoinSideFilter leftAlias)
  rightFilter := filter.bind (deriveJoinSideFilter rightAlias)

end Dodam.Optimizer

/-! ## Reduced join inputs

A row is given by its cells, and a joined row names them by alias and column.
Where the query's filter is true of a joined row, the filter derived for a side
is true of that side, padded with NULLs where it is missing; so reducing the
inputs can only take partners away from rows that are kept alone.
-/
namespace Dodam.Optimizer
open Foundation Execution Storage Sql

abbrev CellRow (α : Type*) := String → Option α

/-- Two aliases that no column starts with both of. -/
structure JoinAliases where
  left : String
  right : String
  apart : ∀ column, (stripJoinPrefix column left).isSome → stripJoinPrefix column right = none

section Rows
variable {α : Type*} (aliases : JoinAliases)

/-- The joined row; the missing side of a padded one is NULL. -/
def joinedRow (row : Option (CellRow α) × Option (CellRow α)) : CellRow α := fun column =>
  match stripJoinPrefix column aliases.left,stripJoinPrefix column aliases.right with
  | some name,_ => row.1.bind fun cells => cells name
  | none,some name => row.2.bind fun cells => cells name
  | none,none => none

def projectRow (projection : Projection) (row : CellRow α) : CellRow α := fun column =>
  match projection with
  | .all => row column
  | .columns columns => if column ∈ columns then row column else none

/-- The values of the key columns, absent where one is NULL. -/
def rowKey (keys : List String) (row : CellRow α) : Option (List α) := keys.mapM row

/-- The columns that the result of a query shows or is sorted by. -/
def outputProjection (projection : Projection) (orderBy : Option SortKey) : Projection :=
  match projection with
  | .all => .all
  | .columns columns => .columns (columns ++ orderBy.elim [] fun orderBy => orderBy.expressions.map SortExpr.column)

end Rows

section Meaning
variable {floats : Floats} {ρ : Type*} (M : Meaning floats ρ)

/-- The meaning of a filter on rows that are given by their cells. -/
def cellMeaning : Meaning floats (CellRow M.Val) where
  Val := M.Val
  literal := M.literal
  cell column row := row column
  scalar _ _ := none
  condition _ _ := none
  rank := M.rank
  like := M.like
  literal_eq_none := M.literal_eq_none
  rank_swap := M.rank_swap
  rank_literals := M.rank_literals
  rank_incomparable := M.rank_incomparable

@[simp] theorem cellMeaning_cell (column : String) (row : CellRow M.Val) :
    (cellMeaning M).cell column row = row column := rfl

def Passes (filter : Option Expr) (row : CellRow M.Val) : Prop :=
  ∀ expr ∈ filter, (cellMeaning M).filter row expr = some true

instance (filter : Option Expr) (row : CellRow M.Val) : Decidable (Passes M filter row) :=
  inferInstanceAs (Decidable (∀ expr ∈ filter, _))

variable [DecidableEq M.Val] (aliases : JoinAliases)

/-- A join query over two inputs, with its filter on the joined rows. -/
def joinQuery (kind : JoinKind) (leftKeys rightKeys : List String) (filter : Option Expr) (output : Projection)
    (left right : Multiset (CellRow M.Val)) : Multiset (CellRow M.Val) :=
  ((nestedLoopJoin (rowKey leftKeys) (rowKey rightKeys) kind left right).filter fun row =>
    Passes M filter (joinedRow aliases row)).map fun row => projectRow output (joinedRow aliases row)

def reduceInput (filter : Option Expr) (projection : Projection) (input : Multiset (CellRow M.Val)) :
    Multiset (CellRow M.Val) :=
  (input.filter (Passes M filter)).map (projectRow projection)

end Meaning
section Columns

variable {columns names : List String} {c : String}

theorem mem_addColumnOnce {column : String} :
    c ∈ addColumnOnce columns column ↔ c ∈ columns ∨ c = column := by
  unfold addColumnOnce
  split_ifs with h
  · exact ⟨Or.inl,fun hc => hc.elim id fun hc => hc ▸ h⟩
  · rw [List.mem_append,List.mem_singleton]

theorem mem_collectExprReferencedColumns {expr : Expr} :
    c ∈ collectExprReferencedColumns expr columns ↔ c ∈ columns ∨ c ∈ exprReferencedColumns expr := by
  unfold exprReferencedColumns
  induction expr generalizing columns with
  | boolean value => simp [collectExprReferencedColumns]
  | comparison comparison => simp [collectExprReferencedColumns,mem_addColumnOnce]
  | columnComparison left op right => simp [collectExprReferencedColumns,mem_addColumnOnce,or_assoc]
  | inList column values negated hasNull => simp [collectExprReferencedColumns,mem_addColumnOnce]
  | like like => simp [collectExprReferencedColumns,mem_addColumnOnce]
  | isNull column negated => simp [collectExprReferencedColumns,mem_addColumnOnce]
  | not expr ih => exact ih
  | and left right ihl ihr | or left right ihl ihr =>
    have hright : c ∈ collectExprReferencedColumns right (collectExprReferencedColumns left []) ↔
        c ∈ collectExprReferencedColumns left [] ∨ c ∈ collectExprReferencedColumns right [] := ihr
    simp only [collectExprReferencedColumns]
    rw [ihr,ihl,hright,or_assoc]

theorem mem_exprReferencedColumns_and {left right : Expr} :
    c ∈ exprReferencedColumns (.and left right) ↔ c ∈ exprReferencedColumns left ∨ c ∈ exprReferencedColumns right := by
  have hmem : c ∈ collectExprReferencedColumns right (exprReferencedColumns left) ↔ _ :=
    mem_collectExprReferencedColumns
  exact hmem

theorem mem_exprReferencedColumns_or {left right : Expr} :
    c ∈ exprReferencedColumns (.or left right) ↔ c ∈ exprReferencedColumns left ∨ c ∈ exprReferencedColumns right :=
  mem_exprReferencedColumns_and

theorem mem_foldl_addColumnOnce :
    c ∈ names.foldl addColumnOnce columns ↔ c ∈ columns ∨ c ∈ names := by
  induction names generalizing columns with
  | nil => simp
  | cons name names ih => rw [List.foldl_cons,ih,mem_addColumnOnce,List.mem_cons,or_assoc]

theorem mem_foldl_addJoinSideColumn {side : String} :
    c ∈ names.foldl (addJoinSideColumn side) columns ↔
      c ∈ columns ∨ ∃ name ∈ names, stripJoinPrefix name side = some c := by
  induction names generalizing columns with
  | nil => simp
  | cons name names ih =>
    rw [List.foldl_cons,ih,List.exists_mem_cons_iff,← or_assoc]
    refine or_congr_left ?_
    unfold addJoinSideColumn
    cases stripJoinPrefix name side with
    | none => simp
    | some column => simp [mem_addColumnOnce,eq_comm]

end Columns

section Truth
variable {floats : Floats} {ρ : Type*} (M : Meaning floats ρ)

theorem filter_congr_columns {expr : Expr} {row row' : CellRow M.Val}
    (h : ∀ column ∈ exprReferencedColumns expr, row column = row' column) :
    (cellMeaning M).filter row expr = (cellMeaning M).filter row' expr := by
  induction expr with
  | boolean value => rfl
  | comparison comparison =>
    have hcell : row comparison.column = row' comparison.column :=
      h _ (by simp [exprReferencedColumns,collectExprReferencedColumns,addColumnOnce])
    simp only [Meaning.filter,cellMeaning_cell,hcell]
  | columnComparison left op right =>
    have hleft : row left = row' left :=
      h _ (by simp [exprReferencedColumns,collectExprReferencedColumns,mem_addColumnOnce])
    have hright : row right = row' right :=
      h _ (by simp [exprReferencedColumns,collectExprReferencedColumns,mem_addColumnOnce])
    simp only [Meaning.filter,cellMeaning_cell,hleft,hright]
  | inList column values negated hasNull =>
    have hcell : row column = row' column :=
      h _ (by simp [exprReferencedColumns,collectExprReferencedColumns,addColumnOnce])
    unfold Meaning.filter
    rw [cellMeaning_cell,cellMeaning_cell,hcell]
  | like like =>
    have hcell : row like.column = row' like.column :=
      h _ (by simp [exprReferencedColumns,collectExprReferencedColumns,addColumnOnce])
    simp only [Meaning.filter,cellMeaning_cell,hcell]
  | isNull column negated =>
    have hcell : row column = row' column :=
      h _ (by simp [exprReferencedColumns,collectExprReferencedColumns,addColumnOnce])
    simp only [Meaning.filter,cellMeaning_cell,hcell]
  | not expr ih =>
    unfold Meaning.filter
    rw [ih h]
  | and left right ihl ihr =>
    unfold Meaning.filter
    rw [ihl fun c hc => h c (mem_exprReferencedColumns_and.mpr (Or.inl hc)),
      ihr fun c hc => h c (mem_exprReferencedColumns_and.mpr (Or.inr hc))]
  | or left right ihl ihr =>
    unfold Meaning.filter
    rw [ihl fun c hc => h c (mem_exprReferencedColumns_or.mpr (Or.inl hc)),
      ihr fun c hc => h c (mem_exprReferencedColumns_or.mpr (Or.inr hc))]

variable {side : String} {row cells : CellRow M.Val}

/-- On a row that names the cells by the alias, the rewritten filter says the same of the cells. -/
theorem filter_rewriteJoinSideExpr
    (hrow : ∀ column name, stripJoinPrefix column side = some name → row column = cells name) {expr : Expr}
    (h : ∀ column ∈ exprReferencedColumns expr, (stripJoinPrefix column side).isSome) :
    (cellMeaning M).filter cells (rewriteJoinSideExpr side expr) = (cellMeaning M).filter row expr := by
  have hcell : ∀ column, (stripJoinPrefix column side).isSome →
      cells ((stripJoinPrefix column side).getD column) = row column := by
    intro column hsome
    obtain ⟨name,hname⟩ := Option.isSome_iff_exists.mp hsome
    rw [hname,hrow column name hname]
    rfl
  induction expr with
  | boolean value => rfl
  | comparison comparison =>
    have hc := hcell comparison.column
      (h _ (by simp [exprReferencedColumns,collectExprReferencedColumns,addColumnOnce]))
    simp only [rewriteJoinSideExpr,Meaning.filter,cellMeaning_cell,hc]
  | columnComparison left op right =>
    have hleft := hcell left (h _ (by simp [exprReferencedColumns,collectExprReferencedColumns,mem_addColumnOnce]))
    have hright := hcell right (h _ (by simp [exprReferencedColumns,collectExprReferencedColumns,mem_addColumnOnce]))
    simp only [rewriteJoinSideExpr,Meaning.filter,cellMeaning_cell,hleft,hright]
  | inList column values negated hasNull =>
    have hc := hcell column (h _ (by simp [exprReferencedColumns,collectExprReferencedColumns,addColumnOnce]))
    unfold rewriteJoinSideExpr Meaning.filter
    rw [cellMeaning_cell,cellMeaning_cell,hc]
  | like like =>
    have hc := hcell like.column (h _ (by simp [exprReferencedColumns,collectExprReferencedColumns,addColumnOnce]))
    simp only [rewriteJoinSideExpr,Meaning.filter,cellMeaning_cell,hc]
  | isNull column negated =>
    have hc := hcell column (h _ (by simp [exprReferencedColumns,collectExprReferencedColumns,addColumnOnce]))
    simp only [rewriteJoinSideExpr,Meaning.filter,cellMeaning_cell,hc]
  | not expr ih =>
    unfold rewriteJoinSideExpr Meaning.filter
    rw [ih h]
  | and left right ihl ihr =>
    unfold rewriteJoinSideExpr Meaning.filter
    rw [ihl fun c hc => h c (mem_exprReferencedColumns_and.mpr (Or.inl hc)),
      ihr fun c hc => h c (mem_exprReferencedColumns_and.mpr (Or.inr hc))]
  | or left right ihl ihr =>
    unfold rewriteJoinSideExpr Meaning.filter
    rw [ihl fun c hc => h c (mem_exprReferencedColumns_or.mpr (Or.inl hc)),
      ihr fun c hc => h c (mem_exprReferencedColumns_or.mpr (Or.inr hc))]

/-- Where the filter is true of the row, the filter derived for the side is true of its cells. -/
theorem deriveJoinSideFilter_true
    (hrow : ∀ column name, stripJoinPrefix column side = some name → row column = cells name) {expr derived : Expr}
    (h : deriveJoinSideFilter side expr = some derived) (htrue : (cellMeaning M).filter row expr = some true) :
    (cellMeaning M).filter cells derived = some true := by
  have hleaf : ∀ {expr derived : Expr},
      (if OnSide side expr then some (rewriteJoinSideExpr side expr) else none) = some derived →
      (cellMeaning M).filter row expr = some true → (cellMeaning M).filter cells derived = some true := by
    intro expr derived h htrue
    split_ifs at h with hside
    cases h
    rw [filter_rewriteJoinSideExpr M hrow hside.2]
    exact htrue
  induction expr generalizing derived with
  | boolean | comparison | columnComparison | inList | like | isNull | not => exact hleaf h htrue
  | and left right ihl ihr =>
    unfold deriveJoinSideFilter at h
    split_ifs at h with hside
    · cases h
      rw [filter_rewriteJoinSideExpr M hrow hside.2]
      exact htrue
    · obtain ⟨hl,hr⟩ := andKleene_eq_true.mp htrue
      cases hleft : deriveJoinSideFilter side left with
      | none =>
        cases hright : deriveJoinSideFilter side right with
        | none =>
          rw [hleft,hright] at h
          cases h
        | some b =>
          rw [hleft,hright] at h
          cases h
          exact ihr hright hr
      | some a =>
        cases hright : deriveJoinSideFilter side right with
        | none =>
          rw [hleft,hright] at h
          cases h
          exact ihl hleft hl
        | some b =>
          rw [hleft,hright] at h
          cases h
          exact andKleene_eq_true.mpr ⟨ihl hleft hl,ihr hright hr⟩
  | or left right ihl ihr =>
    unfold deriveJoinSideFilter at h
    split_ifs at h with hside
    · cases h
      rw [filter_rewriteJoinSideExpr M hrow hside.2]
      exact htrue
    · obtain ⟨a,ha,h⟩ := Option.bind_eq_some_iff.mp h
      obtain ⟨b,hb,h⟩ := Option.bind_eq_some_iff.mp h
      cases h
      exact orKleene_eq_true.mpr ((orKleene_eq_true.mp htrue).imp (ihl ha) (ihr hb))

end Truth

section Plan

def KeepsColumn (projection : Projection) (column : String) : Prop :=
  match projection with
  | .all => True
  | .columns columns => column ∈ columns

/-- The query shows the column, sorts by it or tests it. -/
def NeedsColumn (projection : Projection) (filter : Option Expr) (orderBy : Option SortKey) (column : String) : Prop :=
  KeepsColumn (outputProjection projection orderBy) column ∨ ∃ expr ∈ filter, column ∈ exprReferencedColumns expr

theorem joinSideProjection_keeps (projection : Projection) (filter : Option Expr) (orderBy : Option SortKey)
    (side : String) (keys : List String) :
    (∀ key ∈ keys, KeepsColumn (joinSideProjection projection filter orderBy side keys) key) ∧
      ∀ column name, NeedsColumn projection filter orderBy column → stripJoinPrefix column side = some name →
        KeepsColumn (joinSideProjection projection filter orderBy side keys) name := by
  cases projection with
  | all => exact ⟨fun _ _ => trivial,fun _ _ _ _ => trivial⟩
  | columns columns =>
    unfold joinSideProjection KeepsColumn
    simp only [mem_foldl_addJoinSideColumn,mem_foldl_addColumnOnce]
    refine ⟨fun key hkey => Or.inl (Or.inl (Or.inl (Or.inr hkey))),fun column name hneeds hname => ?_⟩
    rcases hneeds with houtput | ⟨expr,hexpr,hcolumn⟩
    · rcases List.mem_append.mp houtput with hcolumn | hsort
      · exact Or.inl (Or.inl (Or.inr ⟨column,hcolumn,hname⟩))
      · exact Or.inr ⟨column,hsort,hname⟩
    · obtain rfl : filter = some expr := hexpr
      exact Or.inl (Or.inr ⟨column,hcolumn,hname⟩)

variable {α : Type*} {projection : Projection} {row : CellRow α} {column name : String}

theorem projectRow_of_keeps (h : KeepsColumn projection column) :
    projectRow projection row column = row column := by
  cases projection with
  | all => rfl
  | columns columns => exact if_pos h

theorem rowKey_projectRow {keys : List String} (h : ∀ key ∈ keys, KeepsColumn projection key) :
    rowKey keys (projectRow projection row) = rowKey keys row := by
  unfold rowKey
  induction keys with
  | nil => rfl
  | cons key keys ih =>
    rw [List.forall_mem_cons] at h
    rw [List.mapM_cons,List.mapM_cons,projectRow_of_keeps h.1,ih h.2]

variable (aliases : JoinAliases) {x y : Option (CellRow α)}

theorem joinedRow_left (h : stripJoinPrefix column aliases.left = some name) :
    joinedRow aliases (x,y) column = (x.getD fun _ => none) name := by
  unfold joinedRow
  rw [h]
  cases x <;> rfl

theorem joinedRow_right (h : stripJoinPrefix column aliases.right = some name) :
    joinedRow aliases (x,y) column = (y.getD fun _ => none) name := by
  have hleft : stripJoinPrefix column aliases.left = none := by
    by_contra hsome
    rw [aliases.apart column (Option.ne_none_iff_isSome.mp hsome)] at h
    cases h
  unfold joinedRow
  rw [h,hleft]
  cases y <;> rfl

theorem joinedRow_project {left right : Projection} {row : Option (CellRow α) × Option (CellRow α)}
    (hleft : ∀ name, stripJoinPrefix column aliases.left = some name → KeepsColumn left name)
    (hright : ∀ name, stripJoinPrefix column aliases.right = some name → KeepsColumn right name) :
    joinedRow aliases (Prod.map (Option.map (projectRow left)) (Option.map (projectRow right)) row) column =
      joinedRow aliases row column := by
  obtain ⟨x,y⟩ := row
  cases hl : stripJoinPrefix column aliases.left with
  | some name =>
    rw [Prod.map_apply,joinedRow_left aliases hl,joinedRow_left aliases hl]
    cases x with
    | none => rfl
    | some cells => exact projectRow_of_keeps (hleft name hl)
  | none =>
    cases hr : stripJoinPrefix column aliases.right with
    | some name =>
      rw [Prod.map_apply,joinedRow_right aliases hr,joinedRow_right aliases hr]
      cases y with
      | none => rfl
      | some cells => exact projectRow_of_keeps (hright name hr)
    | none =>
      unfold joinedRow
      rw [hl,hr]

end Plan

section Query
variable {floats : Floats} {ρ : Type*} (M : Meaning floats ρ) [DecidableEq M.Val] (aliases : JoinAliases)
  (kind : JoinKind) (projection : Projection) (filter : Option Expr) (orderBy : Option SortKey)
  (leftKeys rightKeys : List String) (left right : Multiset (CellRow M.Val))

omit [DecidableEq M.Val] in
theorem passes_derived {side : String} {row cells : CellRow M.Val}
    (hrow : ∀ column name, stripJoinPrefix column side = some name → row column = cells name)
    (h : Passes M filter row) : Passes M (filter.bind (deriveJoinSideFilter side)) cells := by
  intro derived hderived
  obtain ⟨expr,hexpr,hderive⟩ := Option.bind_eq_some_iff.mp hderived
  exact deriveJoinSideFilter_true M hrow hderive (h expr hexpr)

omit [DecidableEq M.Val] in
theorem passes_congr {row row' : CellRow M.Val}
    (h : ∀ expr ∈ filter, ∀ column ∈ exprReferencedColumns expr, row column = row' column) :
    Passes M filter row ↔ Passes M filter row' := by
  refine forall₂_congr fun expr hexpr => ?_
  rw [filter_congr_columns M (h expr hexpr)]

/-- The projections of the plan keep all that the query reads. -/
theorem joinQuery_project (leftFilter rightFilter : Option Expr) :
    joinQuery M aliases kind leftKeys rightKeys filter (outputProjection projection orderBy)
        (reduceInput M leftFilter (joinSideProjection projection filter orderBy aliases.left leftKeys) left)
        (reduceInput M rightFilter (joinSideProjection projection filter orderBy aliases.right rightKeys) right) =
      joinQuery M aliases kind leftKeys rightKeys filter (outputProjection projection orderBy)
        (left.filter (Passes M leftFilter)) (right.filter (Passes M rightFilter)) := by
  obtain ⟨hleftKeys,hleft⟩ := joinSideProjection_keeps projection filter orderBy aliases.left leftKeys
  obtain ⟨hrightKeys,hright⟩ := joinSideProjection_keeps projection filter orderBy aliases.right rightKeys
  generalize joinSideProjection projection filter orderBy aliases.left leftKeys = leftProjection at hleftKeys hleft ⊢
  generalize joinSideProjection projection filter orderBy aliases.right rightKeys = rightProjection
    at hrightKeys hright ⊢
  have hcell : ∀ (row : Option (CellRow M.Val) × Option (CellRow M.Val)) (column : String),
      NeedsColumn projection filter orderBy column → joinedRow aliases (Prod.map (Option.map (projectRow leftProjection))
        (Option.map (projectRow rightProjection)) row) column = joinedRow aliases row column :=
    fun row column hneeds => joinedRow_project aliases (fun name => hleft column name hneeds) fun name => hright column name hneeds
  have hon : ∀ a b : CellRow M.Val, Joins (rowKey leftKeys (projectRow leftProjection a))
      (rowKey rightKeys (projectRow rightProjection b)) ↔ Joins (rowKey leftKeys a) (rowKey rightKeys b) := by
    intro a b
    rw [rowKey_projectRow hleftKeys,rowKey_projectRow hrightKeys]
  have hjoin : ∀ l r : Multiset (CellRow M.Val),
      nestedLoopJoin (rowKey leftKeys) (rowKey rightKeys) kind (l.map (projectRow leftProjection))
          (r.map (projectRow rightProjection)) =
        (nestedLoopJoin (rowKey leftKeys) (rowKey rightKeys) kind l r).map
          (Prod.map (Option.map (projectRow leftProjection)) (Option.map (projectRow rightProjection))) := by
    intro l r
    rw [nestedLoopJoin_eq_thetaJoin,nestedLoopJoin_eq_thetaJoin]
    exact thetaJoin_map (projectRow leftProjection) (projectRow rightProjection) hon l r kind
  unfold joinQuery reduceInput
  rw [hjoin,Multiset.filter_map,Multiset.map_map]
  have hfilter : ∀ row, Passes M filter (joinedRow aliases (Prod.map (Option.map (projectRow leftProjection))
      (Option.map (projectRow rightProjection)) row)) ↔ Passes M filter (joinedRow aliases row) :=
    fun row => passes_congr M filter fun expr hexpr column hcolumn => hcell row column (Or.inr ⟨expr,hexpr,hcolumn⟩)
  have houtput : ∀ row : Option (CellRow M.Val) × Option (CellRow M.Val), projectRow (outputProjection projection orderBy) (joinedRow aliases
      (Prod.map (Option.map (projectRow leftProjection)) (Option.map (projectRow rightProjection)) row)) =
        projectRow (outputProjection projection orderBy) (joinedRow aliases row) := by
    intro row
    funext column
    by_cases hshown : KeepsColumn (outputProjection projection orderBy) column
    · rw [projectRow_of_keeps hshown,projectRow_of_keeps hshown]
      exact hcell row column (Or.inl hshown)
    · cases projection with
      | all => exact absurd trivial hshown
      | columns columns => exact (if_neg hshown).trans (if_neg hshown).symm
  exact Multiset.map_congr (Multiset.filter_congr fun row _ => hfilter row) fun row _ => houtput row

def plannedQuery (plan : JoinInputPlan) : Multiset (CellRow M.Val) :=
  joinQuery M aliases kind leftKeys rightKeys filter (outputProjection projection orderBy)
    (reduceInput M plan.leftFilter plan.leftProjection left) (reduceInput M plan.rightFilter plan.rightProjection right)

/-- Every row that the join keeps alone and that the query then selects has a partner left, where it had one. -/
def KeepsPartners (plan : JoinInputPlan) : Prop :=
  (kind.LeftAlone → ∀ a ∈ left, Passes M filter (joinedRow aliases (some a,none)) →
    (∃ b ∈ right, Joins (rowKey leftKeys a) (rowKey rightKeys b)) →
    ∃ b ∈ right, Passes M plan.rightFilter b ∧ Joins (rowKey leftKeys a) (rowKey rightKeys b)) ∧
  (kind.RightAlone → ∀ b ∈ right, Passes M filter (joinedRow aliases (none,some b)) →
    (∃ a ∈ left, Joins (rowKey leftKeys a) (rowKey rightKeys b)) →
    ∃ a ∈ left, Passes M plan.leftFilter a ∧ Joins (rowKey leftKeys a) (rowKey rightKeys b))

/-- Each side keeps its keys and its columns among those that the query needs. -/
def CarriesColumns (plan : JoinInputPlan) : Prop :=
  ((∀ key ∈ leftKeys, KeepsColumn plan.leftProjection key) ∧ ∀ key ∈ rightKeys, KeepsColumn plan.rightProjection key) ∧
    ∀ column, NeedsColumn projection filter orderBy column →
      (∀ name, stripJoinPrefix column aliases.left = some name → KeepsColumn plan.leftProjection name) ∧
        ∀ name, stripJoinPrefix column aliases.right = some name → KeepsColumn plan.rightProjection name

end Query

section Padding

theorem head_of_stripJoinPrefix {column side : String} {c : Char} (hside : side.toList.head? = some c)
    (h : (stripJoinPrefix column side).isSome) : column.toList.head? = some c := by
  obtain ⟨name,hname⟩ := Option.isSome_iff_exists.mp h
  obtain ⟨rest,hrest,-⟩ := Option.bind_eq_some_iff.mp hname
  obtain ⟨start,hstart,heq⟩ := List.dropPrefix?_eq_some_iff.mp hrest
  rw [hstart,eq_of_beq heq,List.head?_append,hside]
  rfl

def apartAliases : JoinAliases where
  left := "l"
  right := "r"
  apart column h := by
    by_contra hright
    have hl : column.toList.head? = some 'l' := head_of_stripJoinPrefix rfl h
    rw [head_of_stripJoinPrefix rfl (Option.ne_none_iff_isSome.mp hright)] at hl
    cases hl

/-- Values that are literals, on rows that are given by cells. -/
def rowMeaning : Meaning textHost.floats Unit :=
  literalMeaning textHost.floats textHost_partialCmp (fun _ _ => none) fun _ _ => none

instance : DecidableEq rowMeaning.Val := inferInstanceAs (DecidableEq LiteralValue)

end Padding
end Dodam.Optimizer
