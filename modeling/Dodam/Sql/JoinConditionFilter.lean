import Dodam.Sql.JoinCondition
import Dodam.Sql.PredicateSplit

/-! # The filters of a join condition

A conjunct that is no key is read as a filter.
-/
namespace Dodam.Sql
open Foundation Optimizer
open Execution hiding Passes

section References
variable {floats : Floats} {ρ : Type*}

/-- The references to columns. Bounds, lists and patterns are literals in what is read as a filter. -/
def columnReferences : SqlExpr → List SqlExpr
  | .identifier value => [.identifier value]
  | .compoundIdentifier parts => [.compoundIdentifier parts]
  | .nested expr | .unaryOp _ expr | .isNull expr | .isNotNull expr | .inList expr _ _ | .between expr _ _ _
  | .like expr _ _ _ _ _ => columnReferences expr
  | .binaryOp left _ right => columnReferences left ++ columnReferences right
  | _ => []

/-- A meaning in which references have the values that are given for them, and nothing else is known. -/
def Meaning.withReferences (M : Meaning floats ρ) {σ : Type*} (value : SqlExpr → σ → Option M.Val) : Meaning floats σ where
  Val := M.Val
  literal := M.literal
  cell _ _ := none
  scalar := value
  condition _ _ := none
  rank := M.rank
  like := M.like
  literal_eq_none := M.literal_eq_none
  rank_swap := M.rank_swap
  rank_literals := M.rank_literals
  rank_incomparable := M.rank_incomparable

def noSubqueries : Query → Result QueryOutput := fun _ => unsupportedSql ""

def unresolved : SqlExpr → Result String := fun _ => unsupportedSql ""

def referenceTruth (host : Host) (M : Meaning host.floats ρ) {σ : Type*} (value : SqlExpr → σ → Option M.Val) (row : σ)
    (expr : SqlExpr) : Option Bool :=
  truth host noSubqueries (M.withReferences value) unresolved row expr

end References

section Columns
variable {host : Host} {ρ σ : Type*} {M : Meaning host.floats ρ} {value : SqlExpr → σ → Option M.Val} {row : σ}
  {tableAliases : List String} {cells : CellRow M.Val} {column : String}

/-- The names of the references give the cells that hold their values. -/
def NamesCells (host : Host) (M : Meaning host.floats ρ) (tableAliases : List String) (cells : CellRow M.Val)
    (value : SqlExpr → σ → Option M.Val) (row : σ) (expr : SqlExpr) : Prop :=
  ∀ reference ∈ columnReferences expr, ∀ column, joinColumnName host tableAliases reference = .ok column →
    cells column = value reference row

theorem joinFilterColumn_ok (M : Meaning host.floats ρ) (cells : CellRow M.Val) (value : SqlExpr → σ → Option M.Val) (row : σ) :
    ∀ {expr : SqlExpr}, joinFilterColumn host tableAliases expr = .ok column →
    (∃ reference ∈ columnReferences expr, joinColumnName host tableAliases reference = .ok column) ∧
      (NamesCells host M tableAliases cells value row expr →
        cells column = scalarValue host noSubqueries (M.withReferences value) unresolved row expr)
  | .identifier name,h => by
    refine ⟨⟨_,List.mem_singleton_self _,h⟩,fun hcells => ?_⟩
    exact hcells _ (List.mem_singleton_self _) column h
  | .compoundIdentifier parts,h => by
    refine ⟨⟨_,List.mem_singleton_self _,h⟩,fun hcells => ?_⟩
    exact hcells _ (List.mem_singleton_self _) column h
  | .nested expr,h => by
    have hinner : joinFilterColumn host tableAliases expr = .ok column := h
    have hrest := joinFilterColumn_ok M cells value row hinner
    rw [scalarValue]
    exact hrest

variable {expr left right : SqlExpr} {op : BinaryOperator}

theorem maybeJoinFilterColumn_some (h : maybeJoinFilterColumn host tableAliases expr = .ok (some column)) :
    joinFilterColumn host tableAliases expr = .ok column := by
  unfold maybeJoinFilterColumn at h
  split at h
  case h_4 => cases h
  all_goals
    obtain ⟨_,hname,he⟩ := map_eq_ok_iff.mp h
    cases he
    exact hname

/-- The filter's columns are names of references, and it has the truth value of the expression. -/
def Reads (host : Host) (M : Meaning host.floats ρ) (tableAliases : List String) (cells : CellRow M.Val)
    (value : SqlExpr → σ → Option M.Val) (row : σ) (expr : SqlExpr) (filter : Expr) : Prop :=
  (∀ column ∈ exprReferencedColumns filter, ∃ reference ∈ columnReferences expr,
    joinColumnName host tableAliases reference = .ok column) ∧
  (NamesCells host M tableAliases cells value row expr →
    (cellMeaning M).filter cells filter = referenceTruth host M value row expr)

theorem mem_columns_comparison {comparison : ComparisonExpr} {c : String} :
    c ∈ exprReferencedColumns (.comparison comparison) ↔ c = comparison.column := by
  simp [exprReferencedColumns,collectExprReferencedColumns,addColumnOnce]

theorem mem_columns_columnComparison {left right : String} {op : ComparisonOp} {c : String} :
    c ∈ exprReferencedColumns (.columnComparison left op right) ↔ c = left ∨ c = right := by
  simp [exprReferencedColumns,collectExprReferencedColumns,mem_addColumnOnce]

theorem namesCells_append
    (h : NamesCells host M tableAliases cells value row (.binaryOp left op right)) :
    NamesCells host M tableAliases cells value row left ∧ NamesCells host M tableAliases cells value row right :=
  ⟨fun e he => h e (List.mem_append_left _ he),fun e he => h e (List.mem_append_right _ he)⟩

theorem joinComparisonFilter_reads {comparison : ComparisonOp} {filter : Expr}
    (hop : op.comparison = some comparison) (h : joinComparisonFilter host tableAliases left comparison right = .ok filter) :
    Reads host M tableAliases cells value row (.binaryOp left op right) filter := by
  have htruth : referenceTruth host M value row (.binaryOp left op right) =
      (M.withReferences value).compare comparison (scalarValue host noSubqueries (M.withReferences value) unresolved row left)
        (scalarValue host noSubqueries (M.withReferences value) unresolved row right) := by
    unfold referenceTruth
    cases op <;> simp_all [truth,BinaryOperator.comparison]
  unfold Reads
  rw [htruth]
  unfold joinComparisonFilter at h
  cases hleft : joinFilterColumn host tableAliases left with
  | ok column =>
    obtain ⟨⟨reference,hreference,hname⟩,hvalue⟩ := joinFilterColumn_ok M cells value row hleft
    rw [hleft] at h
    obtain ⟨name,hcolumn,h⟩ := bind_eq_ok_iff.mp h
    obtain rfl := Except.ok.inj (hleft.symm.trans hcolumn)
    obtain ⟨other,hother,h⟩ := bind_eq_ok_iff.mp h
    cases other with
    | some name =>
      obtain ⟨⟨reference',hreference',hname'⟩,hvalue'⟩ :=
        joinFilterColumn_ok M cells value row (maybeJoinFilterColumn_some hother)
      cases h
      refine ⟨fun c hc => ?_,fun hcells => ?_⟩
      · rcases mem_columns_columnComparison.mp hc with rfl | rfl
        · exact ⟨reference,List.mem_append_left _ hreference,hname⟩
        · exact ⟨reference',List.mem_append_right _ hreference',hname'⟩
      · rw [← hvalue (namesCells_append hcells).1,← hvalue' (namesCells_append hcells).2]
        rfl
    | none =>
      obtain ⟨literal,hliteral,h⟩ := bind_eq_ok_iff.mp h
      cases h
      refine ⟨fun c hc => ?_,fun hcells => ?_⟩
      · rw [mem_columns_comparison.mp hc]
        exact ⟨reference,List.mem_append_left _ hreference,hname⟩
      · rw [← hvalue (namesCells_append hcells).1,scalarValue_of_literal hliteral]
        rfl
  | error error =>
    rw [hleft] at h
    obtain ⟨other,hother,h⟩ := bind_eq_ok_iff.mp h
    cases other with
    | none => cases h
    | some name =>
      obtain ⟨⟨reference',hreference',hname'⟩,hvalue'⟩ :=
        joinFilterColumn_ok M cells value row (maybeJoinFilterColumn_some hother)
      obtain ⟨literal,hliteral,h⟩ := bind_eq_ok_iff.mp h
      cases h
      refine ⟨fun c hc => ?_,fun hcells => ?_⟩
      · rw [mem_columns_comparison.mp hc]
        exact ⟨reference',List.mem_append_right _ hreference',hname'⟩
      · have hreverse := Meaning.compare_reverse (M := M.withReferences value) comparison (M.literal literal) (cells name)
        rw [← hvalue' (namesCells_append hcells).2,scalarValue_of_literal hliteral]
        exact hreverse

theorem Reads.binary {a b joined : Expr}
    (ha : Reads host M tableAliases cells value row left a) (hb : Reads host M tableAliases cells value row right b)
    (hcolumns : ∀ c, c ∈ exprReferencedColumns joined ↔ c ∈ exprReferencedColumns a ∨ c ∈ exprReferencedColumns b)
    (htruth : (cellMeaning M).filter cells a = referenceTruth host M value row left →
      (cellMeaning M).filter cells b = referenceTruth host M value row right →
      (cellMeaning M).filter cells joined = referenceTruth host M value row (.binaryOp left op right)) :
    Reads host M tableAliases cells value row (.binaryOp left op right) joined := by
  refine ⟨fun c hc => ?_,fun hcells => ?_⟩
  · rcases (hcolumns c).mp hc with hc | hc
    · obtain ⟨reference,hreference,hname⟩ := ha.1 c hc
      exact ⟨reference,List.mem_append_left _ hreference,hname⟩
    · obtain ⟨reference,hreference,hname⟩ := hb.1 c hc
      exact ⟨reference,List.mem_append_right _ hreference,hname⟩
  · exact htruth (ha.2 (namesCells_append hcells).1) (hb.2 (namesCells_append hcells).2)

theorem reads_leaf (inner : SqlExpr) {column : String} {leaf : Expr} (hreferences : columnReferences expr = columnReferences inner)
    (hcolumn : joinFilterColumn host tableAliases inner = .ok column)
    (hcolumns : ∀ c ∈ exprReferencedColumns leaf, c = column)
    (htruth : cells column = scalarValue host noSubqueries (M.withReferences value) unresolved row inner →
      (cellMeaning M).filter cells leaf = referenceTruth host M value row expr) :
    Reads host M tableAliases cells value row expr leaf := by
  obtain ⟨⟨reference,hreference,hname⟩,hvalue⟩ := joinFilterColumn_ok M cells value row hcolumn
  refine ⟨fun c hc => ?_,fun hcells => htruth (hvalue ?_)⟩
  · rw [hcolumns c hc,hreferences]
    exact ⟨reference,hreference,hname⟩
  · intro e he
    exact hcells e (hreferences ▸ he)

/-- The filter that is read from an expression has its truth value, where its columns name cells of that value. -/
theorem joinExprToFilterExpr_reads : ∀ {expr : SqlExpr} {filter : Expr}, joinExprToFilterExpr host tableAliases expr = .ok filter →
    Reads host M tableAliases cells value row expr filter
  | .binaryOp left op right,filter,h => by
    cases op
    case and =>
      obtain ⟨a,ha,h⟩ := bind_eq_ok_iff.mp h
      obtain ⟨b,hb,h⟩ := bind_eq_ok_iff.mp h
      cases h
      refine (joinExprToFilterExpr_reads ha).binary (joinExprToFilterExpr_reads hb) (fun c => mem_exprReferencedColumns_and)
        fun hleft hright => ?_
      rw [Meaning.filter,hleft,hright]
      rfl
    case or =>
      obtain ⟨a,ha,h⟩ := bind_eq_ok_iff.mp h
      obtain ⟨b,hb,h⟩ := bind_eq_ok_iff.mp h
      cases h
      refine (joinExprToFilterExpr_reads ha).binary (joinExprToFilterExpr_reads hb) (fun c => mem_exprReferencedColumns_or)
        fun hleft hright => ?_
      rw [Meaning.filter,hleft,hright]
      rfl
    case eq | notEq | lt | ltEq | gt | gtEq => exact joinComparisonFilter_reads rfl h
    all_goals exact absurd h (unsupportedSql_ne_ok _ _)
  | .nested expr,filter,h => by
    have hinner : joinExprToFilterExpr host tableAliases expr = .ok filter := h
    have hreads : Reads host M tableAliases cells value row expr filter := joinExprToFilterExpr_reads hinner
    exact hreads
  | .value value',filter,h => by
    cases value'
    case boolean | null =>
      cases h
      exact ⟨fun _ hc => absurd hc List.not_mem_nil,fun _ => rfl⟩
    all_goals exact absurd h (unsupportedSql_ne_ok _ _)
  | .between expr negated low high,filter,h => by
    obtain ⟨column,hcolumn,h⟩ := bind_eq_ok_iff.mp h
    obtain ⟨l,hl,h⟩ := bind_eq_ok_iff.mp h
    obtain ⟨u,hu,h⟩ := bind_eq_ok_iff.mp h
    cases h
    refine reads_leaf expr rfl hcolumn (fun c hc => ?_) fun hvalue => ?_
    · cases negated with
      | false => exact (mem_exprReferencedColumns_and.mp hc).elim mem_columns_comparison.mp mem_columns_comparison.mp
      | true => exact (mem_exprReferencedColumns_or.mp hc).elim mem_columns_comparison.mp mem_columns_comparison.mp
    · rw [betweenFilter_meaning,referenceTruth,truth,← hvalue,scalarValue_of_literal hl,scalarValue_of_literal hu]
      rfl
  | .unaryOp op expr,filter,h => by
    cases op
    case not =>
      obtain ⟨inner,hinner,h⟩ := bind_eq_ok_iff.mp h
      cases h
      have hreads : Reads host M tableAliases cells value row expr inner := joinExprToFilterExpr_reads hinner
      obtain ⟨hcolumns,htruth⟩ := hreads
      refine ⟨hcolumns,fun hcells => ?_⟩
      rw [Meaning.filter,htruth hcells]
      rfl
    all_goals exact absurd h (unsupportedSql_ne_ok _ _)
  | .isNull expr,filter,h
  | .isNotNull expr,filter,h => by
    obtain ⟨column,hcolumn,h⟩ := bind_eq_ok_iff.mp h
    cases h
    refine reads_leaf expr rfl hcolumn (fun c hc => ?_) fun hvalue => ?_
    · simpa [exprReferencedColumns,collectExprReferencedColumns,addColumnOnce] using hc
    · rw [referenceTruth,truth,← hvalue,Meaning.filter,cellMeaning_cell]
      cases cells column <;> rfl
  | .inList expr list negated,filter,h => by
    obtain ⟨column,hcolumn,h⟩ := bind_eq_ok_iff.mp h
    obtain ⟨hasNull,hhasNull,h⟩ := bind_eq_ok_iff.mp h
    obtain ⟨values,hvalues,h⟩ := bind_eq_ok_iff.mp h
    cases h
    obtain ⟨literals,hliterals,rfl⟩ := nonNullLiteralValues_ok hvalues
    rw [literalListContainsNull_eq hliterals] at hhasNull
    cases hhasNull
    refine reads_leaf expr rfl hcolumn (fun c hc => ?_) fun hvalue => ?_
    · simpa [exprReferencedColumns,collectExprReferencedColumns,addColumnOnce] using hc
    · rw [Meaning.filter_inList,referenceTruth,truth,← hvalue,scalarValue_of_literals hliterals]
      rfl
  | .like expr pattern negated any escapeChar caseInsensitive,filter,h => by
    unfold joinExprToFilterExpr at h
    cases any with
    | true => exact absurd h (unsupportedSql_ne_ok _ _)
    | false =>
      obtain ⟨column,hcolumn,h⟩ := bind_eq_ok_iff.mp h
      obtain ⟨text,htext,h⟩ := bind_eq_ok_iff.mp h
      obtain ⟨escape,hescape,h⟩ := bind_eq_ok_iff.mp h
      cases h
      refine reads_leaf expr rfl hcolumn (fun c hc => ?_) fun hvalue => ?_
      · simpa [exprReferencedColumns,collectExprReferencedColumns,addColumnOnce] using hc
      · rw [referenceTruth,truth,← hvalue]
        exacts [rfl,htext,hescape]
  | .identifier _,filter,h | .compoundIdentifier _,filter,h | .typedString _ _,filter,h
  | .interval _ _,filter,h | .subquery _,filter,h | .function _ _,filter,h | .cast _ _,filter,h
  | .substring _ _ _,filter,h | .other _,filter,h | .inSubquery _ _ _,filter,h | .existsSubquery _ _,filter,h =>
    absurd h (unsupportedSql_ne_ok _ _)

end Columns
end Dodam.Sql
