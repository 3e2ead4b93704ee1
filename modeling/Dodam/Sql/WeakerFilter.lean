import Dodam.Sql.FilterMeaning

/-! # The weaker filter of an expression predicate

The scan filter that is made of a predicate for the expression evaluator is true
wherever the predicate is: the parser of scalars gives columns, literals and
COALESCE their values, and conjunctions and disjunctions only lose operands that
they may lose.
-/
namespace Dodam.Sql
open Foundation Execution

section Scalars
variable {host : Host} {parser : ScalarParser}

inductive FunctionReading (name : String) (values : List ScalarSqlExpression) : ScalarSqlExpression → Prop
  | coalesce : String.ofList (name.toList.map Char.toLower) = "coalesce" → FunctionReading name values (.coalesce values)
  | other {scalar : ScalarSqlExpression} : (∀ column, scalar ≠ .column column) → (∀ value, scalar ≠ .literal value) →
      (∀ values, scalar ≠ .coalesce values) → FunctionReading name values scalar

variable {scalar : ScalarSqlExpression}

theorem scalarFunctionExpression_reading {name : String} {values : List ScalarSqlExpression}
    (h : scalarFunctionExpression name values = some (.ok scalar)) : FunctionReading name values scalar := by
  unfold scalarFunctionExpression at h
  dsimp only at h
  split at h
  case h_1 hname =>
    split_ifs at h
    · cases h
    · cases h
      exact .coalesce hname
  case h_2 =>
    split_ifs at h
    · cases h
    · cases h
      exact .other (fun _ => by simp) (fun _ => by simp) fun _ => by simp
  case h_14 => cases h
  all_goals
    split at h
    all_goals
      cases h
      try exact .other (fun _ => by simp) (fun _ => by simp) fun _ => by simp

theorem parseScalarExpression_function {name : List String} {args : List SqlExpr}
    (h : parseScalarExpression host parser (.function name args) = .ok scalar) :
    ∃ function values, name = [function] ∧ parseScalarList host parser args = .ok values ∧
      FunctionReading function values scalar := by
  rw [parseScalarExpression] at h
  obtain ⟨function,hfunction,h⟩ := bind_eq_ok_iff.mp h
  have hname : name = [function] := by
    unfold objectNameToString at hfunction
    split at hfunction
    · cases hfunction
      rfl
    · cases hfunction
  split_ifs at h
  · exact absurd h (unsupportedSql_ne_ok _ _)
  · obtain ⟨values,hvalues,h⟩ := bind_eq_ok_iff.mp h
    refine ⟨function,values,hname,hvalues,?_⟩
    cases hs : scalarFunctionExpression function values with
    | none =>
      rw [hs] at h
      exact absurd h (unsupportedSql_ne_ok _ _)
    | some result =>
      rw [hs,Option.getD_some] at h
      exact scalarFunctionExpression_reading (hs.trans (congrArg some h))

section Values
variable {executeSql : Query → Result QueryOutput} {ρ : Type*} (M : Meaning host.floats ρ)
  (resolve : SqlExpr → Result String)

def ReadsColumns (parser : ScalarParser) (resolve : SqlExpr → Result String) : Prop :=
  ∀ expr scalar, parser.column expr = .ok scalar →
    (∃ column, scalar = .column column ∧ resolve expr = .ok column) ∨ ∃ column field, scalar = .structField column field

theorem readsColumns_single (host : Host) (tableAlias : Option String) :
    ReadsColumns (singleParser host tableAlias) (sqlColumnName host tableAlias) := by
  intro expr scalar h
  change singleColumn host tableAlias expr = .ok scalar at h
  unfold singleColumn at h
  split at h
  · cases h
    exact Or.inr ⟨_,_,rfl⟩
  · obtain ⟨column,hcolumn,rfl⟩ := map_eq_ok_iff.mp h
    exact Or.inl ⟨column,rfl,hcolumn⟩

/-- What a scalar that was read says of the value of its expression. -/
def ReadAs (executeSql : Query → Result QueryOutput) (parser : ScalarParser) (row : ρ) (expr : SqlExpr) :
    ScalarSqlExpression → Prop
  | .column column => scalarValue host executeSql M resolve row expr = M.cell column row
  | .literal value => scalarValue host executeSql M resolve row expr = M.literal value
  | .coalesce values => ∃ args, parseScalarList host parser args = .ok values ∧
      scalarValue host executeSql M resolve row expr = firstValue host executeSql M resolve row args
  | _ => True

variable {M resolve} {row : ρ} {expr : SqlExpr}

theorem readAs_column (hcolumns : ReadsColumns parser resolve) {scalar : ScalarSqlExpression}
    (h : parser.column expr = .ok scalar)
    (hvalue : ∀ column, resolve expr = .ok column → scalarValue host executeSql M resolve row expr = M.cell column row) :
    ReadAs M resolve executeSql parser row expr scalar := by
  rcases hcolumns _ _ h with ⟨column,rfl,hcolumn⟩ | ⟨column,field,rfl⟩
  · exact hvalue column hcolumn
  · trivial

theorem parseScalarExpression_readAs (hcolumns : ReadsColumns parser resolve) :
    ∀ {expr : SqlExpr} {scalar : ScalarSqlExpression}, parseScalarExpression host parser expr = .ok scalar →
      ReadAs M resolve executeSql parser row expr scalar
  | .identifier value,scalar,h => readAs_column hcolumns h fun column hcolumn => by simp only [scalarValue,hcolumn]
  | .compoundIdentifier parts,scalar,h => readAs_column hcolumns h fun column hcolumn => by simp only [scalarValue,hcolumn]
  | .value value,scalar,h => by
    obtain ⟨literal,hliteral,rfl⟩ := map_eq_ok_iff.mp h
    exact scalarValue_of_literal hliteral
  | .typedString dataType value,scalar,h => by
    cases value
    case singleQuotedString | doubleQuotedString =>
      cases h
      trivial
    all_goals exact absurd h (unsupportedSql_ne_ok _ _)
  | .unaryOp op expr,scalar,h => by
    rw [parseScalarExpression] at h
    split_ifs at h
    · obtain ⟨literal,hliteral,rfl⟩ := map_eq_ok_iff.mp h
      exact scalarValue_of_literal hliteral
    · exact absurd h (unsupportedSql_ne_ok _ _)
  | .nested expr,scalar,h => by
    have hinner : ReadAs M resolve executeSql parser row expr scalar := parseScalarExpression_readAs hcolumns h
    cases scalar
    case column | literal | coalesce =>
      unfold ReadAs
      rw [scalarValue]
      exact hinner
    all_goals trivial
  | .binaryOp left op right,scalar,h => by
    rw [parseScalarExpression] at h
    split_ifs at h
    · split at h
      · rename_i hliteral
        cases h
        exact scalarValue_of_literal hliteral
      · obtain ⟨a,-,h⟩ := bind_eq_ok_iff.mp h
        obtain ⟨b,-,h⟩ := bind_eq_ok_iff.mp h
        cases h
        trivial
    · exact absurd h (unsupportedSql_ne_ok _ _)
  | .cast expr dataType,scalar,h => by
    obtain ⟨inner,-,rfl⟩ := map_eq_ok_iff.mp h
    trivial
  | .function name args,scalar,h => by
    obtain ⟨function,values,rfl,hvalues,hreading⟩ := parseScalarExpression_function h
    cases hreading with
    | coalesce hname =>
      refine ⟨args,hvalues,?_⟩
      rw [scalarValue,if_pos (show isCoalesce [function] = true from decide_eq_true hname)]
    | other hcolumn hliteral hcoalesce =>
      cases scalar
      case column => exact absurd rfl (hcolumn _)
      case literal => exact absurd rfl (hliteral _)
      case coalesce => exact absurd rfl (hcoalesce _)
      all_goals trivial
  | .substring expr substringFrom substringFor,scalar,h => by
    rw [parseScalarExpression] at h
    split_ifs at h
    · exact absurd h (unsupportedSql_ne_ok _ _)
    · obtain ⟨a,-,h⟩ := bind_eq_ok_iff.mp h
      obtain ⟨b,-,h⟩ := bind_eq_ok_iff.mp h
      obtain ⟨c,-,h⟩ := bind_eq_ok_iff.mp h
      cases b with
      | none => exact absurd h (unsupportedSql_ne_ok _ _)
      | some start =>
        cases h
        trivial
  | .other display,scalar,h => by
    obtain ⟨_,_,rfl⟩ := map_eq_ok_iff.mp h
    trivial

theorem simpleColumnWrappedExpression_some (hcolumns : ReadsColumns parser resolve) {column : String}
    (h : simpleColumnWrappedExpression host parser expr = .ok (some column)) :
    scalarValue host executeSql M resolve row expr = M.cell column row := by
  obtain ⟨scalar,hscalar,he⟩ := map_eq_ok_iff.mp h
  split at he
  · cases he
    exact parseScalarExpression_readAs hcolumns hscalar
  · cases he

theorem scalarValue_coalesce (hcolumns : ReadsColumns parser resolve) {column : String}
    {fallback : LiteralValue} (h : parseScalarExpression host parser expr = .ok (.coalesce [.column column,.literal fallback])) :
    scalarValue host executeSql M resolve row expr = (M.cell column row).or (M.literal fallback) := by
  have hread : ReadAs M resolve executeSql parser row expr (.coalesce [.column column,.literal fallback]) :=
    parseScalarExpression_readAs hcolumns h
  obtain ⟨args,hargs,hvalue⟩ := hread
  rw [hvalue]
  cases args with
  | nil => cases hargs
  | cons first rest =>
    obtain ⟨a,ha,hargs⟩ := bind_eq_ok_iff.mp hargs
    obtain ⟨b,hb,hargs⟩ := bind_eq_ok_iff.mp hargs
    cases hargs
    cases rest with
    | nil => cases hb
    | cons second rest =>
      obtain ⟨c,hc,hb⟩ := bind_eq_ok_iff.mp hb
      obtain ⟨d,hd,hb⟩ := bind_eq_ok_iff.mp hb
      cases hb
      cases rest with
      | cons third rest =>
        obtain ⟨_,-,hd⟩ := bind_eq_ok_iff.mp hd
        obtain ⟨_,-,hd⟩ := bind_eq_ok_iff.mp hd
        cases hd
      | nil =>
        have hfirst : scalarValue host executeSql M resolve row first = M.cell column row :=
          parseScalarExpression_readAs hcolumns ha
        have hsecond : scalarValue host executeSql M resolve row second = M.literal fallback :=
          parseScalarExpression_readAs hcolumns hc
        rw [firstValue,firstValue,firstValue,hfirst,hsecond,Option.or_none]

section Pushdown
variable (hcolumns : ReadsColumns parser resolve)
include hcolumns

variable {expr : SqlExpr} {op : ComparisonOp} {filter : Expr} {negated : Bool}

theorem coalesceComparisonPushdown_weaker {literal : LiteralValue}
    (h : coalesceComparisonPushdown host parser expr op literal = .ok (some filter))
    (htrue : M.compare op (scalarValue host executeSql M resolve row expr) (M.literal literal) = some true) :
    M.filter row filter = some true := by
  obtain ⟨scalar,hscalar,h⟩ := bind_eq_ok_iff.mp h
  split at h
  · rename_i column fallback
    obtain ⟨holds,hholds,h⟩ := bind_eq_ok_iff.mp h
    cases h
    rw [scalarValue_coalesce hcolumns hscalar] at htrue
    cases hcell : M.cell column row with
    | none =>
      -- The fallback decides, so it was found to satisfy the comparison.
      rw [hcell,Option.none_or,Meaning.compare_literals hholds] at htrue
      rw [if_pos htrue,Meaning.filter]
      exact orKleene_eq_true.mpr (Or.inr (by rw [Meaning.filter,hcell]; rfl))
    | some v =>
      rw [hcell,Option.some_or] at htrue
      have hcolumn : M.filter row (.comparison ⟨column,op,literal⟩) = some true := by
        rw [Meaning.filter,hcell]
        exact htrue
      split_ifs
      · exact orKleene_eq_true.mpr (Or.inl hcolumn)
      · exact hcolumn
  · cases h

theorem safeColumnWrapperComparisonPushdown_weaker {literalExpr : SqlExpr}
    (h : safeColumnWrapperComparisonPushdown host parser expr op literalExpr = .ok (some filter))
    (htrue : M.compare op (scalarValue host executeSql M resolve row expr)
      (scalarValue host executeSql M resolve row literalExpr) = some true) :
    M.filter row filter = some true := by
  unfold safeColumnWrapperComparisonPushdown at h
  cases hliteral : sqlLiteralValue host literalExpr with
  | error _ =>
    rw [hliteral] at h
    cases h
  | ok literal =>
    rw [hliteral] at h
    rw [scalarValue_of_literal hliteral] at htrue
    obtain ⟨column,hcolumn,h⟩ := bind_eq_ok_iff.mp h
    cases column with
    | some column =>
      cases h
      rw [simpleColumnWrappedExpression_some hcolumns hcolumn] at htrue
      exact htrue
    | none => exact coalesceComparisonPushdown_weaker hcolumns h htrue

theorem safeExpressionComparisonPushdown_weaker {left right : SqlExpr}
    (h : safeExpressionComparisonPushdown host parser left op right = .ok (some filter))
    (htrue : M.compare op (scalarValue host executeSql M resolve row left)
      (scalarValue host executeSql M resolve row right) = some true) :
    M.filter row filter = some true := by
  obtain ⟨first,hfirst,h⟩ := bind_eq_ok_iff.mp h
  cases first with
  | some first =>
    cases h
    exact safeColumnWrapperComparisonPushdown_weaker hcolumns hfirst htrue
  | none =>
    rw [← Meaning.compare_reverse] at htrue
    exact safeColumnWrapperComparisonPushdown_weaker hcolumns h htrue

theorem safeExpressionBetweenPushdown_meaning {low high : SqlExpr}
    (h : safeExpressionBetweenPushdown host parser expr negated low high = .ok (some filter)) :
    M.filter row filter = truth host executeSql M resolve row (.between expr negated low high) := by
  obtain ⟨column,hcolumn,h⟩ := bind_eq_ok_iff.mp h
  cases column with
  | none => cases h
  | some column =>
    obtain ⟨l,hl,h⟩ := bind_eq_ok_iff.mp h
    obtain ⟨u,hu,h⟩ := bind_eq_ok_iff.mp h
    cases h
    rw [betweenFilter_meaning,truth,simpleColumnWrappedExpression_some hcolumns hcolumn,scalarValue_of_literal hl,
      scalarValue_of_literal hu]

theorem safeExpressionInListPushdown_meaning {list : List SqlExpr}
    (h : safeExpressionInListPushdown host parser expr list negated = .ok (some filter)) :
    M.filter row filter = truth host executeSql M resolve row (.inList expr list negated) := by
  cases negated with
  | true => cases h
  | false =>
    obtain ⟨column,hcolumn,h⟩ := bind_eq_ok_iff.mp h
    cases column with
    | none => cases h
    | some column =>
      obtain ⟨values,hvalues,h⟩ := bind_eq_ok_iff.mp h
      obtain ⟨literals,hliterals,rfl⟩ := nonNullLiteralValues_ok hvalues
      split_ifs at h
      · cases h
      · obtain ⟨hasNull,hhasNull,h⟩ := bind_eq_ok_iff.mp h
        cases h
        rw [literalListContainsNull_eq hliterals] at hhasNull
        cases hhasNull
        rw [Meaning.filter_inList,truth,simpleColumnWrappedExpression_some hcolumns hcolumn,scalarValue_of_literals hliterals]

theorem safeExpressionNullPushdown_meaning (executeSql : Query → Result QueryOutput)
    (h : safeExpressionNullPushdown host parser expr negated = .ok (some filter)) :
    M.filter row filter = some ((scalarValue host executeSql M resolve row expr).isNone != negated) := by
  obtain ⟨column,hcolumn,he⟩ := map_eq_ok_iff.mp h
  cases column with
  | none => cases he
  | some column =>
    cases he
    rw [Meaning.filter,simpleColumnWrappedExpression_some hcolumns hcolumn]

theorem safeExpressionLikePushdown_meaning {pattern : SqlExpr} {any caseInsensitive : Bool}
    {escapeChar : Option Value}
    (h : safeExpressionLikePushdown host parser expr pattern negated any escapeChar caseInsensitive = .ok (some filter)) :
    M.filter row filter =
      truth host executeSql M resolve row (.like expr pattern negated any escapeChar caseInsensitive) := by
  cases any with
  | true => cases h
  | false =>
    obtain ⟨column,hcolumn,h⟩ := bind_eq_ok_iff.mp h
    cases column with
    | none => cases h
    | some column =>
      obtain ⟨text,htext,h⟩ := bind_eq_ok_iff.mp h
      obtain ⟨escape,hescape,h⟩ := bind_eq_ok_iff.mp h
      cases h
      rw [truth,simpleColumnWrappedExpression_some hcolumns hcolumn]
      exacts [rfl,htext,hescape]

/-- The filter for the scan is true wherever the predicate is. -/
theorem safeExpressionPushdownFilter_weaker : ∀ {expr : SqlExpr} {filter : Expr},
    safeExpressionPushdownFilter host parser expr = .ok (some filter) →
      truth host executeSql M resolve row expr = some true → M.filter row filter = some true
  | .nested expr,filter,h,htrue => by
    rw [safeExpressionPushdownFilter] at h
    rw [truth] at htrue
    exact safeExpressionPushdownFilter_weaker h htrue
  | .binaryOp left op right,filter,h,htrue => by
    cases op
    case and =>
      obtain ⟨a,ha,h⟩ := bind_eq_ok_iff.mp h
      obtain ⟨b,hb,h⟩ := bind_eq_ok_iff.mp h
      obtain ⟨hl,hr⟩ := andKleene_eq_true.mp htrue
      cases a with
      | none =>
        cases b with
        | none => cases h
        | some b =>
          cases h
          exact safeExpressionPushdownFilter_weaker hb hr
      | some a =>
        cases b with
        | none =>
          cases h
          exact safeExpressionPushdownFilter_weaker ha hl
        | some b =>
          cases h
          exact andKleene_eq_true.mpr
            ⟨safeExpressionPushdownFilter_weaker ha hl,safeExpressionPushdownFilter_weaker hb hr⟩
    case or =>
      obtain ⟨a,ha,h⟩ := bind_eq_ok_iff.mp h
      cases a with
      | none => cases h
      | some a =>
        obtain ⟨b,hb,h⟩ := bind_eq_ok_iff.mp h
        cases b with
        | none => cases h
        | some b =>
          cases h
          exact orKleene_eq_true.mpr ((orKleene_eq_true.mp htrue).imp (safeExpressionPushdownFilter_weaker ha)
            (safeExpressionPushdownFilter_weaker hb))
    case eq | notEq | lt | ltEq | gt | gtEq => exact safeExpressionComparisonPushdown_weaker hcolumns h htrue
    all_goals cases h
  | .inList expr list negated,filter,h,htrue => (safeExpressionInListPushdown_meaning hcolumns h).trans htrue
  | .between expr negated low high,filter,h,htrue => (safeExpressionBetweenPushdown_meaning hcolumns h).trans htrue
  | .isNull expr,filter,h,htrue => by
    rw [safeExpressionNullPushdown_meaning hcolumns executeSql h,Bool.bne_false]
    exact htrue
  | .isNotNull expr,filter,h,htrue => by
    rw [safeExpressionNullPushdown_meaning hcolumns executeSql h,Bool.bne_true,Option.not_isNone]
    exact htrue
  | .like expr pattern negated any escapeChar caseInsensitive,filter,h,htrue =>
    (safeExpressionLikePushdown_meaning hcolumns h).trans htrue

end Pushdown
end Values
end Scalars

end Dodam.Sql
