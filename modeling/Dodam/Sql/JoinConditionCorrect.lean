import Dodam.Sql.JoinConditionFilter

/-! # Join conditions as they are written

A join on the key columns with the filter on the right input is compared with the join on the
condition as it is written.
-/
namespace Dodam.Sql
open Foundation Optimizer JoinParts
open Execution hiding Passes

section Scope

inductive JoinSide
  | left
  | right
deriving DecidableEq

structure JoinScope where
  leftAlias : String
  rightAlias : String
  leftColumns : List String
  rightColumns : List String

/-- `schema_column_index`: the column of the name, or of what is behind the first dot of it. -/
def tableColumn (columns : List String) (column : String) : Option String :=
  if column ∈ columns then some column
  else (splitOnce '.' column.toList).bind fun parts =>
    if String.ofList parts.2 ∈ columns then some (String.ofList parts.2) else none

def tableCell {α : Type*} (columns : List String) (row : CellRow α) (column : String) : Option α :=
  (tableColumn columns column).bind row

namespace JoinScope
variable (scope : JoinScope)

def unqualified (column : String) : Option (JoinSide × String) :=
  match decide (column ∈ scope.leftColumns),decide (column ∈ scope.rightColumns) with
  | true,false => some (.left,column)
  | false,true => some (.right,column)
  | _,_ => none

def qualified (qualifier column : String) : Option (JoinSide × String) :=
  match eqIgnoreAsciiCase qualifier scope.leftAlias,eqIgnoreAsciiCase qualifier scope.rightAlias with
  | true,false => if column ∈ scope.leftColumns then some (.left,column) else none
  | false,true => if column ∈ scope.rightColumns then some (.right,column) else none
  | _,_ => none

def owner : SqlExpr → Option (JoinSide × String)
  | .identifier column | .compoundIdentifier [column] => scope.unqualified column
  | .compoundIdentifier [qualifier,column] => scope.qualified qualifier column
  | _ => none

def Owned (expr : SqlExpr) : Prop := ∀ reference ∈ columnReferences expr, (scope.owner reference).isSome

end JoinScope

/-- The conjuncts that the parser takes apart. -/
def joinConjuncts : SqlExpr → List SqlExpr
  | .binaryOp left .and right => joinConjuncts left ++ joinConjuncts right
  | expr => [expr]

end Scope

section Owners
variable {scope : JoinScope} {column : String}

end Owners

section Meaning
variable {host : Host} {ρ : Type*} (M : Meaning host.floats ρ) (scope : JoinScope)

abbrev RowPair := CellRow M.Val × CellRow M.Val

namespace JoinScope

def value (reference : SqlExpr) (row : RowPair M) : Option M.Val :=
  match scope.owner reference with
  | some (.left,column) => row.1 column
  | some (.right,column) => row.2 column
  | none => none

def Holds (expr : SqlExpr) (row : RowPair M) : Prop := referenceTruth host M (scope.value M) row expr = some true

instance (expr : SqlExpr) (row : RowPair M) : Decidable (scope.Holds M expr row) :=
  inferInstanceAs (Decidable (_ = _))

def rightCells (row : CellRow M.Val) : CellRow M.Val := tableCell scope.rightColumns row

def KeysEqual (leftKey rightKey : String) (row : RowPair M) : Prop :=
  M.compare .eq (tableCell scope.leftColumns row.1 leftKey) (tableCell scope.rightColumns row.2 rightKey) = some true

instance (leftKey rightKey : String) (row : RowPair M) : Decidable (scope.KeysEqual M leftKey rightKey row) :=
  inferInstanceAs (Decidable (_ = _))

def JoinsOn (condition : JoinCondition) (a b : CellRow M.Val) : Prop :=
  ∀ keys ∈ condition.leftKeys.zip condition.rightKeys, scope.KeysEqual M keys.1 keys.2 (a,b)

instance (condition : JoinCondition) (a b : CellRow M.Val) : Decidable (scope.JoinsOn M condition a b) :=
  inferInstanceAs (Decidable (∀ keys ∈ _, _))

def Scans (condition : JoinCondition) : Prop :=
  (∀ key ∈ condition.leftKeys, (tableColumn scope.leftColumns key).isSome) ∧
    (∀ key ∈ condition.rightKeys, (tableColumn scope.rightColumns key).isSome) ∧
    ∀ filter ∈ condition.rightFilter, ∀ column ∈ exprReferencedColumns filter, (tableColumn scope.rightColumns column).isSome

instance (condition : JoinCondition) : Decidable (scope.Scans condition) :=
  inferInstanceAs (Decidable (_ ∧ _ ∧ ∀ filter ∈ condition.rightFilter, _))

/-- The join as it is run: none where a column is not found. -/
def run (condition : JoinCondition) (left right : Multiset (CellRow M.Val)) :
    Option (Multiset (Option (CellRow M.Val) × Option (CellRow M.Val))) :=
  if scope.Scans condition then
    some (thetaJoin (scope.JoinsOn M condition) condition.kind left
      (right.filter fun row => Passes M condition.rightFilter (scope.rightCells M row)))
  else none

def joinOn (kind : JoinKind) (expr : SqlExpr) (left right : Multiset (CellRow M.Val)) :
    Multiset (Option (CellRow M.Val) × Option (CellRow M.Val)) :=
  thetaJoin (fun a b => scope.Holds M expr (a,b)) kind left right

end JoinScope

/-- What a part says of two rows, and whether its columns are found. -/
def JoinPart.Holds (part : JoinPart) (row : RowPair M) : Prop :=
  match part with
  | .keys left right => scope.KeysEqual M left right row
  | .filter expr => (cellMeaning M).filter (scope.rightCells M row.2) expr = some true

instance (part : JoinPart) (row : RowPair M) : Decidable (part.Holds M scope row) := by
  cases part
  all_goals
    unfold JoinPart.Holds
    infer_instance

def JoinPart.Found (part : JoinPart) : Prop :=
  match part with
  | .keys left right => (tableColumn scope.leftColumns left).isSome ∧ (tableColumn scope.rightColumns right).isSome
  | .filter expr => ∀ column ∈ exprReferencedColumns expr, (tableColumn scope.rightColumns column).isSome

end Meaning

section Conjuncts
variable {host : Host} {leftAlias rightAlias : String} {kind : JoinKind}

/-- The parts of a condition are those of its conjuncts, in order. -/
theorem collectJoinEqualities_ok : ∀ {expr : SqlExpr} {parts parts' : JoinParts},
    collectJoinEqualities host leftAlias rightAlias kind expr parts = .ok parts' →
    ∃ added, List.Forall₂ (fun conjunct part => joinPart host leftAlias rightAlias kind conjunct = .ok part)
      (joinConjuncts expr) added ∧ parts' = added.foldl add parts := by
  intro expr
  induction expr using joinConjuncts.induct with
  | case1 left right ihl ihr =>
    intro parts parts' h
    obtain ⟨middle,hmiddle,h⟩ := bind_eq_ok_iff.mp h
    obtain ⟨a,ha,rfl⟩ := ihl hmiddle
    obtain ⟨b,hb,rfl⟩ := ihr h
    exact ⟨a ++ b,List.rel_append ha hb,(List.foldl_append ..).symm⟩
  | case2 expr hexpr =>
    intro parts parts' h
    have hconjuncts : joinConjuncts expr = [expr] := by
      unfold joinConjuncts
      split
      · exact absurd rfl (hexpr _ _)
      · rfl
    have hcollect : collectJoinEqualities host leftAlias rightAlias kind expr parts =
        (joinPart host leftAlias rightAlias kind expr).map parts.add := by
      unfold collectJoinEqualities
      split
      · exact absurd rfl (hexpr _ _)
      · rfl
    rw [hcollect] at h
    obtain ⟨part,hpart,rfl⟩ := map_eq_ok_iff.mp h
    rw [hconjuncts]
    exact ⟨[part],.cons hpart .nil,rfl⟩

variable {ρ : Type*} {M : Meaning host.floats ρ} {scope : JoinScope} {row : RowPair M}

theorem holds_conjuncts {expr : SqlExpr} :
    scope.Holds M expr row ↔ ∀ conjunct ∈ joinConjuncts expr, scope.Holds M conjunct row := by
  induction expr using joinConjuncts.induct with
  | case1 left right ihl ihr =>
    unfold joinConjuncts
    rw [List.forall_mem_append,← ihl,← ihr]
    exact andKleene_eq_true
  | case2 expr hexpr =>
    have hconjuncts : joinConjuncts expr = [expr] := by
      unfold joinConjuncts
      split
      · exact absurd rfl (hexpr _ _)
      · rfl
    rw [hconjuncts]
    simp

end Conjuncts
section Parts
variable {host : Host} {ρ : Type*} {M : Meaning host.floats ρ} {scope : JoinScope} {row : RowPair M}
  {leftAlias rightAlias : String} {kind : JoinKind}

/-- What the gathered keys and filters say of two rows, and whether their columns are found. -/
def JoinParts.Hold (M : Meaning host.floats ρ) (scope : JoinScope) (parts : JoinParts) (row : RowPair M) : Prop :=
  (∀ keys ∈ parts.leftKeys.zip parts.rightKeys, scope.KeysEqual M keys.1 keys.2 row) ∧
    ∀ filter ∈ parts.rightFilters, (cellMeaning M).filter (scope.rightCells M row.2) filter = some true

def JoinParts.Found (scope : JoinScope) (parts : JoinParts) : Prop :=
  (∀ key ∈ parts.leftKeys, (tableColumn scope.leftColumns key).isSome) ∧
    (∀ key ∈ parts.rightKeys, (tableColumn scope.rightColumns key).isSome) ∧
    ∀ filter ∈ parts.rightFilters, ∀ column ∈ exprReferencedColumns filter, (tableColumn scope.rightColumns column).isSome

def JoinParts.Paired (parts : JoinParts) : Prop := parts.leftKeys.length = parts.rightKeys.length

theorem JoinParts.Paired.add {parts : JoinParts} (h : parts.Paired) (part : JoinPart) : (parts.add part).Paired := by
  cases part with
  | keys left right => simpa [JoinParts.Paired,JoinParts.add] using h
  | filter expr => exact h

theorem hold_add {parts : JoinParts} (h : parts.Paired) (part : JoinPart) :
    (parts.add part).Hold M scope row ↔ parts.Hold M scope row ∧ part.Holds M scope row := by
  unfold JoinParts.Hold JoinParts.add JoinPart.Holds
  cases part with
  | keys left right =>
    rw [List.zip_append h,List.forall_mem_append]
    simp only [List.zip_cons_cons,List.zip_nil_left,List.forall_mem_singleton]
    exact and_right_comm
  | filter expr =>
    rw [List.forall_mem_append,List.forall_mem_singleton]
    exact and_assoc.symm

theorem found_add (parts : JoinParts) (part : JoinPart) :
    (parts.add part).Found scope ↔ parts.Found scope ∧ part.Found scope := by
  unfold JoinParts.Found add JoinPart.Found
  cases part with
  | keys left right =>
    rw [List.forall_mem_append,List.forall_mem_append,List.forall_mem_singleton,List.forall_mem_singleton]
    tauto
  | filter expr =>
    rw [List.forall_mem_append,List.forall_mem_singleton]
    tauto

theorem parts_foldl {added : List JoinPart} {parts : JoinParts} (h : parts.Paired) :
    ((added.foldl add parts).Hold M scope row ↔ parts.Hold M scope row ∧ ∀ part ∈ added, part.Holds M scope row) ∧
      ((added.foldl add parts).Found scope ↔ parts.Found scope ∧ ∀ part ∈ added, part.Found scope) := by
  induction added generalizing parts with
  | nil => simp
  | cons part added ih =>
    obtain ⟨hhold,hfound⟩ := ih (h.add part)
    rw [List.foldl_cons,List.forall_mem_cons,List.forall_mem_cons,hhold,hfound,hold_add h,found_add,and_assoc,and_assoc]
    exact ⟨Iff.rfl,Iff.rfl⟩

theorem joinPart_of_rightAlone {expr : SqlExpr} {part : JoinPart} (hkind : kind.RightAlone)
    (h : joinPart host leftAlias rightAlias kind expr = .ok part) : ∃ left right, part = .keys left right := by
  have hresidual : ∀ {expr : SqlExpr} {filter : Expr},
      joinOnResidualFilter host leftAlias rightAlias expr kind ≠ .ok filter := by
    intro expr filter hok
    obtain ⟨inner,-,hok⟩ := bind_eq_ok_iff.mp hok
    unfold normalizeRightJoinOnFilter at hok
    rw [if_neg (by rintro (rfl | rfl | rfl) <;> exact hkind)] at hok
    exact unsupportedSql_ne_ok _ _ hok
  unfold joinPart at h
  split at h
  · unfold joinEqualityPart at h
    split at h
    · cases h
      exact ⟨_,_,rfl⟩
    · obtain ⟨l,-,h⟩ := bind_eq_ok_iff.mp h
      obtain ⟨r,-,h⟩ := bind_eq_ok_iff.mp h
      split at h
      · obtain ⟨keys,-,h⟩ := bind_eq_ok_iff.mp h
        cases h
        exact ⟨_,_,rfl⟩
      · obtain ⟨filter,hfilter,-⟩ := bind_eq_ok_iff.mp h
        exact absurd hfilter hresidual
  · obtain ⟨filter,hfilter,-⟩ := map_eq_ok_iff.mp h
    exact absurd hfilter hresidual

theorem rightFilters_foldl {added : List JoinPart} {parts : JoinParts} (h : ∀ part ∈ added, ∃ left right, part = .keys left right) :
    (added.foldl add parts).rightFilters = parts.rightFilters := by
  induction added generalizing parts with
  | nil => rfl
  | cons part added ih =>
    obtain ⟨left,right,rfl⟩ := h part List.mem_cons_self
    exact ih fun p hp => h p (List.mem_cons_of_mem _ hp)

theorem columns_combineExprFilters {filters : List Expr} {P : String → Prop} :
    (∀ filter ∈ combineExprFilters filters, ∀ column ∈ exprReferencedColumns filter, P column) ↔
      ∀ filter ∈ filters, ∀ column ∈ exprReferencedColumns filter, P column := by
  have hfold : ∀ (filters : List Expr) (first : Expr),
      (∀ column ∈ exprReferencedColumns (filters.foldl (fun right left => .and left right) first), P column) ↔
        (∀ column ∈ exprReferencedColumns first, P column) ∧ ∀ filter ∈ filters, ∀ column ∈ exprReferencedColumns filter, P column := by
    intro filters
    induction filters with
    | nil => simp
    | cons filter filters ih =>
      intro first
      rw [List.foldl_cons,ih,List.forall_mem_cons]
      simp only [mem_exprReferencedColumns_and,or_imp,forall_and]
      tauto
  rcases List.eq_nil_or_concat filters with rfl | ⟨filters,last,rfl⟩
  · exact iff_of_true (fun _ h => by cases h) (List.forall_mem_nil _)
  · unfold combineExprFilters
    rw [List.concat_eq_append,List.getLast?_concat,List.dropLast_concat,List.forall_mem_append,List.forall_mem_singleton]
    simp only [Option.mem_def,Option.some.injEq,forall_eq',hfold]
    exact and_comm

end Parts

section Run
variable {host : Host} {ρ : Type*} {M : Meaning host.floats ρ} {scope : JoinScope} {kind : JoinKind} {expr : SqlExpr}
  {operator : JoinOperator} {condition : JoinCondition} {left right : Multiset (CellRow M.Val)}

/-- What is run joins on what the parts say, where their columns are found. -/
theorem run_eq_parts (hparse : parseJoinCondition host scope.leftAlias scope.rightAlias operator = .ok condition)
    (hon : operator.kind = .ok (kind,.on expr)) :
    ∃ parts : List JoinPart, List.Forall₂ (fun conjunct part =>
        joinPart host scope.leftAlias scope.rightAlias kind conjunct = .ok part) (joinConjuncts expr) parts ∧
      (scope.Scans condition ↔ ∀ part ∈ parts, part.Found scope) ∧
      thetaJoin (scope.JoinsOn M condition) condition.kind left
          (right.filter fun row => Passes M condition.rightFilter (scope.rightCells M row)) =
        thetaJoin (fun a b => ∀ part ∈ parts, part.Holds M scope (a,b)) kind left right := by
  unfold parseJoinCondition at hparse
  rw [hon,except_bind_ok] at hparse
  obtain ⟨gathered,hgathered,hparse⟩ := bind_eq_ok_iff.mp hparse
  split_ifs at hparse with hempty
  · exact absurd hparse (unsupportedSql_ne_ok _ _)
  · cases hparse
    obtain ⟨parts,hparts,rfl⟩ := collectJoinEqualities_ok hgathered
    have hpaired : (⟨[],[],[]⟩ : JoinParts).Paired := rfl
    have hholds : ∀ a b, scope.JoinsOn M ⟨kind,(parts.foldl add ⟨[],[],[]⟩).leftKeys,
          (parts.foldl add ⟨[],[],[]⟩).rightKeys,
          combineExprFilters (parts.foldl add ⟨[],[],[]⟩).rightFilters⟩ a b ∧
        Passes M (combineExprFilters (parts.foldl add ⟨[],[],[]⟩).rightFilters) (scope.rightCells M b) ↔
          ∀ part ∈ parts, part.Holds M scope (a,b) := by
      intro a b
      have hpasses : Passes M (combineExprFilters (parts.foldl add ⟨[],[],[]⟩).rightFilters) (scope.rightCells M b) ↔ _ :=
        passesFilter_combineExprFilters
      rw [hpasses]
      refine ((parts_foldl hpaired).1).trans (and_iff_right ?_)
      exact ⟨nofun,nofun⟩
    refine ⟨parts,hparts,?_,?_⟩
    · unfold JoinScope.Scans
      rw [columns_combineExprFilters]
      refine ((@parts_foldl host ρ M scope (fun _ => none,fun _ => none) parts _ hpaired).2).trans (and_iff_right ?_)
      exact ⟨nofun,nofun,nofun⟩
    · by_cases hkind : kind.RightAlone
      · have hkeys : ∀ part ∈ parts, ∃ left right, part = JoinPart.keys left right := by
          intro part hpart
          obtain ⟨conjunct,-,hconjunct⟩ := exists_of_forall₂_right hparts hpart
          exact joinPart_of_rightAlone hkind hconjunct
        have hnone : (parts.foldl add ⟨[],[],[]⟩).rightFilters = [] := rightFilters_foldl hkeys
        rw [hnone] at hholds ⊢
        have hall : (right.filter fun row => Passes M (combineExprFilters []) (scope.rightCells M row)) = right :=
          Multiset.filter_eq_self.mpr fun _ _ _ h => by cases h
        rw [hall]
        refine thetaJoin_congr fun a _ b _ => ?_
        rw [← hholds a b]
        exact (and_iff_left fun _ h => by cases h).symm
      · dsimp only
        rw [thetaJoin_filter_right _ hkind]
        exact thetaJoin_congr fun a _ b _ => hholds a b

end Run
section Straight
variable (host : Host) {ρ : Type*} (M : Meaning host.floats ρ) (scope : JoinScope) (kind : JoinKind)

def JoinScope.part (expr : SqlExpr) : Result JoinPart := joinPart host scope.leftAlias scope.rightAlias kind expr

/-- The keys are the columns that the two references of the equality stand for. -/
def JoinScope.KeysOwned (leftKey rightKey : String) (expr : SqlExpr) : Prop :=
  ∃ e e' x y, expr = .binaryOp e .eq e' ∧ tableColumn scope.leftColumns leftKey = some x ∧
    tableColumn scope.rightColumns rightKey = some y ∧
    (scope.owner e = some (.left,x) ∧ scope.owner e' = some (.right,y) ∨
      scope.owner e = some (.right,y) ∧ scope.owner e' = some (.left,x))

/-- Every reference stands for the column of the right table that is found by its name. -/
def JoinScope.RightOwned (expr : SqlExpr) : Prop :=
  ∀ reference ∈ columnReferences expr, ∀ column,
    joinColumnName host [scope.leftAlias,scope.rightAlias] reference = .ok column →
      ∃ x, tableColumn scope.rightColumns (stripColumnPrefix column scope.rightAlias) = some x ∧
        scope.owner reference = some (.right,x)

/-- The columns that a conjunct is taken to name are those that it names. -/
def JoinScope.Straight (expr : SqlExpr) : Prop :=
  match scope.part host kind expr with
  | .ok (.keys left right) => scope.KeysOwned left right expr
  | .ok (.filter _) => scope.RightOwned host expr
  | .error _ => True

/-- The columns that a conjunct is taken to name are found in the tables. -/
def JoinScope.Findable (expr : SqlExpr) : Prop := ∀ part, scope.part host kind expr = .ok part → part.Found scope

/-- The conjunct is true of two rows in the columns that it is taken to name. -/
def JoinScope.AsRead (expr : SqlExpr) (row : RowPair M) : Prop :=
  ∀ part, scope.part host kind expr = .ok part → part.Holds M scope row

def JoinScope.StraightHold (expr : SqlExpr) (row : RowPair M) : Prop :=
  ∀ conjunct ∈ joinConjuncts expr, scope.Straight host kind conjunct → scope.Holds M conjunct row

/-- The other conjuncts are true of two rows, as they are written. -/
def JoinScope.OthersHold (expr : SqlExpr) (row : RowPair M) : Prop :=
  ∀ conjunct ∈ joinConjuncts expr, ¬ scope.Straight host kind conjunct → scope.Holds M conjunct row

def JoinScope.OthersRead (expr : SqlExpr) (row : RowPair M) : Prop :=
  ∀ conjunct ∈ joinConjuncts expr, ¬ scope.Straight host kind conjunct → scope.AsRead host M kind conjunct row

end Straight

section Preserved
variable {host : Host} {ρ : Type*} {M : Meaning host.floats ρ} {scope : JoinScope} {kind : JoinKind} {expr : SqlExpr}
  {row : RowPair M}

theorem filter_stripFilterPrefix (cells : CellRow M.Val) (qualifier : String) (filter : Expr) :
    (cellMeaning M).filter cells (stripFilterPrefix filter qualifier) =
      (cellMeaning M).filter (fun column => cells (stripColumnPrefix column qualifier)) filter := by
  unfold stripFilterPrefix
  induction filter with
  | not filter ih =>
    unfold rewriteJoinSideExpr Meaning.filter
    rw [ih]
  | and left right ihl ihr | or left right ihl ihr =>
    unfold rewriteJoinSideExpr Meaning.filter
    rw [ihl,ihr]
  | boolean value | comparison comparison | columnComparison left op right | inList column values negated hasNull
  | like like | isNull column negated => rfl

variable {filter : Expr}

theorem mem_columns_stripFilterPrefix {qualifier : String} {column : String}
    (h : column ∈ exprReferencedColumns (stripFilterPrefix filter qualifier)) :
    ∃ name ∈ exprReferencedColumns filter, column = stripColumnPrefix name qualifier := by
  unfold stripFilterPrefix at h
  induction filter with
  | boolean value => cases h
  | not filter ih => exact ih h
  | and left right ihl ihr =>
    rcases mem_exprReferencedColumns_and.mp h with h | h
    · obtain ⟨name,hname,heq⟩ := ihl h
      exact ⟨name,mem_exprReferencedColumns_and.mpr (Or.inl hname),heq⟩
    · obtain ⟨name,hname,heq⟩ := ihr h
      exact ⟨name,mem_exprReferencedColumns_and.mpr (Or.inr hname),heq⟩
  | or left right ihl ihr =>
    rcases mem_exprReferencedColumns_or.mp h with h | h
    · obtain ⟨name,hname,heq⟩ := ihl h
      exact ⟨name,mem_exprReferencedColumns_or.mpr (Or.inl hname),heq⟩
    · obtain ⟨name,hname,heq⟩ := ihr h
      exact ⟨name,mem_exprReferencedColumns_or.mpr (Or.inr hname),heq⟩
  | columnComparison left op right =>
    rcases mem_columns_columnComparison.mp h with rfl | rfl
    · exact ⟨left,mem_columns_columnComparison.mpr (Or.inl rfl),rfl⟩
    · exact ⟨right,mem_columns_columnComparison.mpr (Or.inr rfl),rfl⟩
  | comparison comparison => exact ⟨comparison.column,mem_columns_comparison.mpr rfl,mem_columns_comparison.mp h⟩
  | inList name values negated hasNull | isNull name negated =>
    simp only [rewriteJoinSideExpr,exprReferencedColumns,collectExprReferencedColumns,mem_addColumnOnce,List.not_mem_nil,
      false_or] at h ⊢
    exact ⟨name,rfl,h⟩
  | like like =>
    simp only [rewriteJoinSideExpr,exprReferencedColumns,collectExprReferencedColumns,mem_addColumnOnce,List.not_mem_nil,
      false_or] at h ⊢
    exact ⟨like.column,rfl,h⟩

theorem scalarValue_of_owner {reference : SqlExpr} {side : JoinSide} {column : String}
    (h : scope.owner reference = some (side,column)) :
    scalarValue host noSubqueries (M.withReferences (scope.value M)) unresolved row reference = scope.value M reference row := by
  unfold JoinScope.owner at h
  split at h
  · rfl
  · rfl
  · rfl
  · cases h

/-- A filter on the right table is found and says what the conjunct says. -/
theorem straight_filter (hstraight : scope.RightOwned host expr)
    (h : joinOnResidualFilter host scope.leftAlias scope.rightAlias expr kind = .ok filter) :
    (JoinPart.filter filter).Found scope ∧
      ∀ row : RowPair M, (JoinPart.filter filter).Holds M scope row ↔ scope.Holds M expr row := by
  obtain ⟨inner,hinner,h⟩ := bind_eq_ok_iff.mp h
  have hfilter : filter = stripFilterPrefix inner scope.rightAlias := by
    unfold normalizeRightJoinOnFilter at h
    split_ifs at h
    · exact absurd h (unsupportedSql_ne_ok _ _)
    · exact (Except.ok.inj h).symm
    · exact absurd h (unsupportedSql_ne_ok _ _)
  rw [hfilter]
  constructor
  · intro column hcolumn
    obtain ⟨name,hname,rfl⟩ := mem_columns_stripFilterPrefix hcolumn
    have hreads : Reads host M [scope.leftAlias,scope.rightAlias] (fun _ => none) (scope.value M) (fun _ => none,fun _ => none)
      expr inner := joinExprToFilterExpr_reads hinner
    obtain ⟨reference,hreference,hcolumnName⟩ := hreads.1 name hname
    obtain ⟨x,hx,-⟩ := hstraight reference hreference name hcolumnName
    rw [hx]
    rfl
  · intro row
    have hreads : Reads host M [scope.leftAlias,scope.rightAlias]
      (fun column => scope.rightCells M row.2 (stripColumnPrefix column scope.rightAlias)) (scope.value M) row expr inner :=
        joinExprToFilterExpr_reads hinner
    unfold JoinPart.Holds JoinScope.Holds
    dsimp only
    rw [filter_stripFilterPrefix,hreads.2]
    intro reference hreference column hcolumn
    obtain ⟨x,hx,howner⟩ := hstraight reference hreference column hcolumn
    unfold JoinScope.rightCells tableCell JoinScope.value
    dsimp only
    rw [hx,howner]
    rfl

theorem straight_keys {leftKey rightKey : String} (hstraight : scope.KeysOwned leftKey rightKey expr) :
    (JoinPart.keys leftKey rightKey).Found scope ∧
      ∀ row : RowPair M, (JoinPart.keys leftKey rightKey).Holds M scope row ↔ scope.Holds M expr row := by
  obtain ⟨e,e',x,y,rfl,hx,hy,howners⟩ := hstraight
  refine ⟨⟨by rw [hx]; rfl,by rw [hy]; rfl⟩,fun row => ?_⟩
  have hkeys : (JoinPart.keys leftKey rightKey).Holds M scope row ↔ M.compare .eq (row.1 x) (row.2 y) = some true := by
    unfold JoinPart.Holds JoinScope.KeysEqual tableCell
    dsimp only
    rw [hx,hy]
    exact Iff.rfl
  have htruth : scope.Holds M (.binaryOp e .eq e') row ↔
      (M.withReferences (scope.value M)).compare .eq (scope.value M e row) (scope.value M e' row) = some true := by
    obtain ⟨howner,howner'⟩ | ⟨howner,howner'⟩ := howners
    · rw [← scalarValue_of_owner howner,← scalarValue_of_owner howner']
      rfl
    · rw [← scalarValue_of_owner howner,← scalarValue_of_owner howner']
      rfl
  rw [hkeys,htruth]
  obtain ⟨howner,howner'⟩ | ⟨howner,howner'⟩ := howners
  · unfold JoinScope.value
    rw [howner,howner']
    rfl
  · unfold JoinScope.value
    rw [howner,howner']
    have hreverse := Meaning.compare_reverse (M := M) .eq (row.1 x) (row.2 y)
    rw [← hreverse]
    rfl

theorem joinPart_filter {leftAlias rightAlias : String}
    (h : joinPart host leftAlias rightAlias kind expr = .ok (.filter filter)) :
    joinOnResidualFilter host leftAlias rightAlias expr kind = .ok filter := by
  unfold joinPart at h
  split at h
  · unfold joinEqualityPart at h
    split at h
    · cases h
    · obtain ⟨l,-,h⟩ := bind_eq_ok_iff.mp h
      obtain ⟨r,-,h⟩ := bind_eq_ok_iff.mp h
      split at h
      · obtain ⟨keys,-,h⟩ := bind_eq_ok_iff.mp h
        cases h
      · obtain ⟨residual,hresidual,h⟩ := bind_eq_ok_iff.mp h
        cases h
        exact hresidual
  · obtain ⟨residual,hresidual,h⟩ := map_eq_ok_iff.mp h
    cases h
    exact hresidual

theorem straight_part {part : JoinPart} (hstraight : scope.Straight host kind expr) (h : scope.part host kind expr = .ok part) :
    part.Found scope ∧ ∀ row : RowPair M, part.Holds M scope row ↔ scope.Holds M expr row := by
  unfold JoinScope.Straight at hstraight
  rw [h] at hstraight
  cases part with
  | keys left right => exact straight_keys hstraight
  | filter filter => exact straight_filter hstraight (joinPart_filter h)

variable {operator : JoinOperator} {condition : JoinCondition}

/-- The join is that of the condition where the columns of the conjuncts that are not straight are found, and these
conjuncts are true of the rows that are joined so far as they are read just where they are true as they are written. -/
theorem parseJoinCondition_preserves_iff
    (hparse : parseJoinCondition host scope.leftAlias scope.rightAlias operator = .ok condition)
    (hon : operator.kind = .ok (kind,.on expr)) (left right : Multiset (CellRow M.Val)) :
    scope.run M condition left right = some (scope.joinOn M kind expr left right) ↔
      (∀ conjunct ∈ joinConjuncts expr, ¬ scope.Straight host kind conjunct → scope.Findable host kind conjunct) ∧
        JoinsAlike kind (fun a b => scope.StraightHold host M kind expr (a,b) ∧ scope.OthersRead host M kind expr (a,b))
          (fun a b => scope.StraightHold host M kind expr (a,b) ∧ scope.OthersHold host M kind expr (a,b)) left right := by
  obtain ⟨parts,hparts,hscans,hjoin⟩ := @run_eq_parts host ρ M scope kind expr operator condition left right hparse hon
  have hfound : scope.Scans condition ↔
      ∀ conjunct ∈ joinConjuncts expr, ¬ scope.Straight host kind conjunct → scope.Findable host kind conjunct := by
    rw [hscans]
    constructor
    · intro h conjunct hconjunct _ part hpart
      obtain ⟨part',hmem,hpart'⟩ := exists_of_forall₂_left hparts hconjunct
      obtain rfl := Except.ok.inj (hpart.symm.trans hpart')
      exact h part hmem
    · intro h part hpart
      obtain ⟨conjunct,hconjunct,hok⟩ := exists_of_forall₂_right hparts hpart
      by_cases hstraight : scope.Straight host kind conjunct
      · exact (straight_part (M := M) hstraight hok).1
      · exact h conjunct hconjunct hstraight part hok
  have hread : ∀ a b, (∀ part ∈ parts, part.Holds M scope (a,b)) ↔
      scope.StraightHold host M kind expr (a,b) ∧ scope.OthersRead host M kind expr (a,b) := by
    intro a b
    constructor
    · intro h
      refine ⟨fun conjunct hconjunct hstraight => ?_,fun conjunct hconjunct _ part hpart => ?_⟩
      · obtain ⟨part,hmem,hok⟩ := exists_of_forall₂_left hparts hconjunct
        exact ((straight_part hstraight hok).2 (a,b)).mp (h part hmem)
      · obtain ⟨part',hmem,hok⟩ := exists_of_forall₂_left hparts hconjunct
        obtain rfl := Except.ok.inj (hpart.symm.trans hok)
        exact h part hmem
    · rintro ⟨hstraights,hothers⟩ part hpart
      obtain ⟨conjunct,hconjunct,hok⟩ := exists_of_forall₂_right hparts hpart
      by_cases hstraight : scope.Straight host kind conjunct
      · exact ((straight_part hstraight hok).2 (a,b)).mpr (hstraights conjunct hconjunct hstraight)
      · exact hothers conjunct hconjunct hstraight part hok
  have hwritten : ∀ a b, scope.Holds M expr (a,b) ↔
      scope.StraightHold host M kind expr (a,b) ∧ scope.OthersHold host M kind expr (a,b) := by
    intro a b
    rw [holds_conjuncts]
    constructor
    · intro h
      exact ⟨fun conjunct hconjunct _ => h conjunct hconjunct,fun conjunct hconjunct _ => h conjunct hconjunct⟩
    · rintro ⟨hstraights,hothers⟩ conjunct hconjunct
      by_cases hstraight : scope.Straight host kind conjunct
      · exact hstraights conjunct hconjunct hstraight
      · exact hothers conjunct hconjunct hstraight
  unfold JoinScope.run JoinScope.joinOn
  rw [← hfound,hjoin]
  split_ifs with hscan
  · rw [Option.some_inj,thetaJoin_eq_iff,and_iff_right hscan]
    simp only [hread,hwritten]
  · refine iff_of_false ?_ fun h => hscan h.1
    simp

end Preserved

section Spellings
variable {host : Host} {scope : JoinScope} {kind : JoinKind} {a b : String}

end Spellings

section Samples

/-- Two tables that both have a column `x`. -/
def sampleScope : JoinScope := ⟨"l","r",["a","x"],["b","x"]⟩

def sampleMeaning : Meaning textHost.floats Unit :=
  literalMeaning textHost.floats textHost_partialCmp (fun _ _ => none) fun _ _ => none

def sampleLeft : CellRow LiteralValue := fun column => if column = "x" then some (.int64 5) else some (.int64 1)

def sampleRight : CellRow LiteralValue := fun column => if column = "x" then some (.int64 0) else some (.int64 1)

def sampleLefts : Multiset (CellRow sampleMeaning.Val) := {sampleLeft}

def sampleRights : Multiset (CellRow sampleMeaning.Val) := {sampleRight}

/-- `l.a = r.b`. -/
def qualifiedKeys : SqlExpr := .binaryOp (.compoundIdentifier ["l","a"]) .eq (.compoundIdentifier ["r","b"])

/-- `b = a`. -/
def swappedKeys : SqlExpr := .binaryOp (.identifier "b") .eq (.identifier "a")

/-- `l.a = r.b AND L.x = 5`. -/
def upperResidual : SqlExpr :=
  .binaryOp qualifiedKeys .and (.binaryOp (.compoundIdentifier ["L","x"]) .eq (.value (.number "5" false)))

theorem joinOn_sample {expr : SqlExpr} (h : sampleScope.Holds sampleMeaning expr (sampleLeft,sampleRight)) :
    (some sampleLeft,some sampleRight) ∈ sampleScope.joinOn sampleMeaning .inner expr sampleLefts sampleRights := by
  have hpair : (some sampleLeft,some sampleRight) ∈
      thetaPairs (fun a b => sampleScope.Holds sampleMeaning expr (a,b)) sampleLefts sampleRights := mem_thetaPairs.mpr ⟨Multiset.mem_singleton_self _,Multiset.mem_singleton_self _,h⟩
  exact hpair

/-- Keys that are written from right to left are looked for in the wrong tables, and a residual filter on the left table
is read from the right one where its alias is in another letter case. -/
theorem parseJoinCondition_changes_rows :
    (∃ condition, parseJoinCondition textHost "l" "r" (.join (.on swappedKeys)) = .ok condition ∧
      sampleScope.Owned swappedKeys ∧
      sampleScope.run sampleMeaning condition sampleLefts sampleRights ≠
        some (sampleScope.joinOn sampleMeaning .inner swappedKeys sampleLefts sampleRights)) ∧
    ∃ condition, parseJoinCondition textHost "l" "r" (.join (.on upperResidual)) = .ok condition ∧
      sampleScope.Owned upperResidual ∧
      sampleScope.run sampleMeaning condition sampleLefts sampleRights ≠
        some (sampleScope.joinOn sampleMeaning .inner upperResidual sampleLefts sampleRights) := by
  constructor
  · refine ⟨⟨.inner,["b"],["a"],none⟩,rfl,?_,?_⟩
    · unfold JoinScope.Owned
      decide
    · have hrun : sampleScope.run sampleMeaning ⟨.inner,["b"],["a"],none⟩ sampleLefts sampleRights = none := rfl
      rw [hrun]
      exact nofun
  · refine ⟨⟨.inner,["a"],["b"],some (.comparison ⟨"L.x",.eq,.int64 5⟩)⟩,rfl,?_,?_⟩
    · unfold JoinScope.Owned
      decide
    · have hrun : sampleScope.run sampleMeaning ⟨.inner,["a"],["b"],some (.comparison ⟨"L.x",.eq,.int64 5⟩)⟩ sampleLefts
          sampleRights = some 0 := rfl
      rw [hrun]
      intro hsame
      have hmem := @joinOn_sample upperResidual rfl
      rw [← Option.some_inj.mp hsame] at hmem
      exact Multiset.notMem_zero _ hmem

/-- Keys with qualifiers join as they are written. -/
theorem parseJoinCondition_preserves_qualified :
    sampleScope.run sampleMeaning ⟨.inner,["a"],["b"],none⟩ sampleLefts sampleRights =
      some (sampleScope.joinOn sampleMeaning .inner qualifiedKeys sampleLefts sampleRights) := by
  have hstraight : ∀ conjunct ∈ joinConjuncts qualifiedKeys, sampleScope.Straight textHost .inner conjunct := by
    intro conjunct hconjunct
    obtain rfl := List.mem_singleton.mp hconjunct
    exact ⟨_,_,"a","b",rfl,rfl,rfl,Or.inl ⟨rfl,rfl⟩⟩
  apply (@parseJoinCondition_preserves_iff textHost Unit sampleMeaning sampleScope .inner qualifiedKeys
    (.join (.on qualifiedKeys)) ⟨.inner,["a"],["b"],none⟩ rfl rfl sampleLefts sampleRights).mpr
  refine ⟨fun conjunct hconjunct hnot => absurd (hstraight conjunct hconjunct) hnot,?_⟩
  unfold JoinsAlike
  intro a _ b _
  refine and_congr_right fun _ => ⟨fun _ conjunct hconjunct hnot => ?_,fun _ conjunct hconjunct hnot => ?_⟩
  · exact absurd (hstraight conjunct hconjunct) hnot
  · exact absurd (hstraight conjunct hconjunct) hnot

end Samples
end Dodam.Sql
