import Dodam.Sql.FilterParser
import Dodam.Sql.ScalarParser

/-! # Splitting a predicate

The conjuncts of a WHERE predicate go one of two ways.
-/
namespace Dodam.Sql
open Foundation Execution

section Tests
variable (host : Host)

def scalarPredicateSideRequiresExpression (expr : SqlExpr) : Bool :=
  match expr with
  | .identifier _ => false
  | .compoundIdentifier parts => 1 < parts.length
  | .function _ _ | .substring _ _ _ | .cast _ _ => true
  | expr => !(sqlLiteralValue host expr).toBool

def predicateRequiresExpressionPath : SqlExpr → Bool
  | .binaryOp left op right =>
    if op = .and ∨ op = .or then predicateRequiresExpressionPath left || predicateRequiresExpressionPath right
    else scalarPredicateSideRequiresExpression host left || scalarPredicateSideRequiresExpression host right
  | .unaryOp op expr => op = .not && predicateRequiresExpressionPath expr
  | .nested expr => predicateRequiresExpressionPath expr
  | .isNull expr | .isNotNull expr => scalarPredicateSideRequiresExpression host expr
  | .inList expr list _ =>
    scalarPredicateSideRequiresExpression host expr || list.any (scalarPredicateSideRequiresExpression host)
  | .between expr _ low high =>
    scalarPredicateSideRequiresExpression host expr || scalarPredicateSideRequiresExpression host low ||
      scalarPredicateSideRequiresExpression host high
  | .like expr pattern _ _ _ _ =>
    scalarPredicateSideRequiresExpression host expr || scalarPredicateSideRequiresExpression host pattern
  | _ => false

mutual

def exprContainsMaterializableSubquery : SqlExpr → Bool
  | .existsSubquery _ _ | .inSubquery _ _ _ | .subquery _ => true
  | .binaryOp left _ right => exprContainsMaterializableSubquery left || exprContainsMaterializableSubquery right
  | .nested expr | .unaryOp _ expr | .isNull expr | .isNotNull expr => exprContainsMaterializableSubquery expr
  | .inList expr list _ => exprContainsMaterializableSubquery expr || anyContainsMaterializableSubquery list
  | _ => false

def anyContainsMaterializableSubquery : List SqlExpr → Bool
  | [] => false
  | expr :: list => exprContainsMaterializableSubquery expr || anyContainsMaterializableSubquery list

end

end Tests

section Conjuncts

def sqlAndConjuncts : SqlExpr → List SqlExpr
  | .binaryOp left .and right => sqlAndConjuncts left ++ sqlAndConjuncts right
  | .nested expr => sqlAndConjuncts expr
  | expr => [expr]

/-- `combine_expr_filters`: the last filter is the innermost. -/
def combineExprFilters (filters : List Expr) : Option Expr :=
  match filters.getLast? with
  | none => none
  | some first => some (filters.dropLast.foldl (fun right left => .and left right) first)

def combineFilterOptions (left right : Option Expr) : Option Expr :=
  match left,right with
  | none,none => none
  | some filter,none | none,some filter => some filter
  | some left,some right => some (.and left right)

end Conjuncts

section Pushdown
variable (host : Host) (parser : ScalarParser)

def reverseComparison : ComparisonOp → ComparisonOp
  | .lt => .gt
  | .ltEq => .gtEq
  | .gt => .lt
  | .gtEq => .ltEq
  | op => op

def simpleColumnWrappedExpression (expr : SqlExpr) : Result (Option String) :=
  (parseScalarExpression host parser expr).map fun scalar =>
    match scalar with
    | .column column => some column
    | _ => none

def coalesceComparisonPushdown (expr : SqlExpr) (op : ComparisonOp) (literal : LiteralValue) :
    Result (Option Expr) := do
  match ← parseScalarExpression host parser expr with
  | .coalesce [.column column,.literal fallback] =>
    let columnFilter : Expr := .comparison ⟨column,op,literal⟩
    let holds ← compareLiteralValues host.floats fallback op literal
    return some (if holds = some true then .or columnFilter (.isNull column false) else columnFilter)
  | _ => return none

def safeColumnWrapperComparisonPushdown (expr : SqlExpr) (op : ComparisonOp) (literalExpr : SqlExpr) :
    Result (Option Expr) :=
  match sqlLiteralValue host literalExpr with
  | .error _ => .ok none
  | .ok literal => do
    match ← simpleColumnWrappedExpression host parser expr with
    | some column => return some (.comparison ⟨column,op,literal⟩)
    | none => coalesceComparisonPushdown host parser expr op literal

def safeExpressionComparisonPushdown (left : SqlExpr) (op : ComparisonOp) (right : SqlExpr) :
    Result (Option Expr) := do
  match ← safeColumnWrapperComparisonPushdown host parser left op right with
  | some filter => return some filter
  | none => safeColumnWrapperComparisonPushdown host parser right (reverseComparison op) left

def safeExpressionBetweenPushdown (expr : SqlExpr) (negated : Bool) (low high : SqlExpr) :
    Result (Option Expr) := do
  match ← simpleColumnWrappedExpression host parser expr with
  | none => return none
  | some column =>
    let low ← sqlLiteralValue host low
    let high ← sqlLiteralValue host high
    return some (betweenFilter column negated low high)

def safeExpressionInListPushdown (expr : SqlExpr) (list : List SqlExpr) (negated : Bool) :
    Result (Option Expr) :=
  if negated then .ok none
  else do
    match ← simpleColumnWrappedExpression host parser expr with
    | none => return none
    | some column =>
      let values ← nonNullLiteralValues host list
      if values.isEmpty then return none
      else
        let hasNull ← literalListContainsNull host list
        return some (.inList column values false hasNull)

def safeExpressionNullPushdown (expr : SqlExpr) (negated : Bool) : Result (Option Expr) :=
  (simpleColumnWrappedExpression host parser expr).map fun column => column.map fun column => .isNull column negated

def safeExpressionLikePushdown (expr pattern : SqlExpr) (negated any : Bool) (escapeChar : Option Value)
    (caseInsensitive : Bool) : Result (Option Expr) :=
  if any then .ok none
  else do
    match ← simpleColumnWrappedExpression host parser expr with
    | none => return none
    | some column =>
      let pattern ← sqlLikePattern host pattern
      let escape ← sqlLikeEscape escapeChar
      return some (.like ⟨column,pattern,negated,escape,caseInsensitive⟩)

def safeExpressionPushdownFilter : SqlExpr → Result (Option Expr)
  | .nested expr => safeExpressionPushdownFilter expr
  | .binaryOp left op right =>
    match op with
    | .and => do
      let left ← safeExpressionPushdownFilter left
      let right ← safeExpressionPushdownFilter right
      return combineFilterOptions left right
    | .or => do
      match ← safeExpressionPushdownFilter left with
      | none => return none
      | some left =>
        match ← safeExpressionPushdownFilter right with
        | none => return none
        | some right => return some (.or left right)
    | op =>
      match op.comparison with
      | some op => safeExpressionComparisonPushdown host parser left op right
      | none => .ok none
  | .inList expr list negated => safeExpressionInListPushdown host parser expr list negated
  | .between expr negated low high => safeExpressionBetweenPushdown host parser expr negated low high
  | .isNull expr => safeExpressionNullPushdown host parser expr false
  | .isNotNull expr => safeExpressionNullPushdown host parser expr true
  | .like expr pattern negated any escapeChar caseInsensitive =>
    safeExpressionLikePushdown host parser expr pattern negated any escapeChar caseInsensitive
  | _ => .ok none

end Pushdown

section Split
variable (host : Host) (executeSql : Query → Result QueryOutput) (tableAlias : Option String)

def subqueryBatches (subquery : Query) : Result (List RecordBatch) := (executeSql subquery).bind queryOutputBatches

def existsFilter (subquery : Query) (negated : Bool) : Result (Option Expr) :=
  (subqueryBatches executeSql subquery).map fun batches =>
    let found := batches.any fun batch => 0 < batch.numRows
    some (.boolean (some (if negated then !found else found)))

def inSubqueryFilter (expr : SqlExpr) (subquery : Query) (negated : Bool) : Result (Option Expr) := do
  let batches ← subqueryBatches executeSql subquery
  let values ← literalValuesFromSingleColumnBatches host.floats batches
  match sqlLiteralValue host expr with
  | .ok value => return some (.boolean (evaluateLiteralInValues host.floats value values negated))
  | .error _ =>
    let column ← sqlFilterColumn host tableAlias expr
    return some (.inList column (nonNullSubqueryValues values) negated (subqueryValuesContainNull values))

def scalarSubqueryFilter (left : SqlExpr) (op : ComparisonOp) (subquery : Query) : Result (Option Expr) := do
  let batches ← subqueryBatches executeSql subquery
  let value ← scalarLiteralValueFromBatches host.floats batches
  match sqlLiteralValue host left with
  | .ok left => (compareLiteralValues host.floats left op value).map fun holds => some (.boolean holds)
  | .error _ =>
    let column ← sqlFilterColumn host tableAlias left
    return some (.comparison ⟨column,op,value⟩)

/-- A leaf of the predicate, absent where it needs the expression evaluator. -/
def leafFilter (expr : SqlExpr) : Result (Option Expr) :=
  if predicateRequiresExpressionPath host expr then .ok none
  else (sqlExprToFilterExpr host tableAlias expr).map some

def inListLeafFilter (expr : SqlExpr) (list : List SqlExpr) (negated : Bool) : Result (Option Expr) :=
  if predicateRequiresExpressionPath host (.inList expr list negated) then .ok none
  else
    match sqlLiteralValue host expr with
    | .ok value => (evaluateLiteralInList host value list negated).map fun holds => some (.boolean holds)
    | .error _ => (sqlExprToFilterExpr host tableAlias (.inList expr list negated)).map some

def nullTestFilter (expr : SqlExpr) (negated : Bool) : Result (Option Expr) :=
  match sqlLiteralValue host expr with
  | .ok value =>
    let isNull : Bool := value = .null
    .ok (some (.boolean (some (if negated then !isNull else isNull))))
  | .error _ => (sqlExprToFilterExpr host tableAlias (if negated then .isNotNull expr else .isNull expr)).map some

/-- An absent operand is neutral, whatever the connective. -/
def combineOperands (connective : Expr → Expr → Expr) (left right : Option Expr) : Option Expr :=
  match left,right with
  | some left,some right => some (connective left right)
  | some filter,none | none,some filter => some filter
  | none,none => none

def parseFilterWithSubqueries : SqlExpr → Result (Option Expr)
  | .existsSubquery subquery negated => existsFilter executeSql subquery negated
  | .inSubquery expr subquery negated => inSubqueryFilter host executeSql tableAlias expr subquery negated
  | .inList expr list negated => inListLeafFilter host tableAlias expr list negated
  | .unaryOp op expr =>
    match op with
    | .not => (parseFilterWithSubqueries expr).map (Option.map .not)
    | op => leafFilter host tableAlias (.unaryOp op expr)
  | .isNull expr => nullTestFilter host tableAlias expr false
  | .isNotNull expr => nullTestFilter host tableAlias expr true
  | .binaryOp left op right =>
    match op with
    | .and => do
      let left ← parseFilterWithSubqueries left
      let right ← parseFilterWithSubqueries right
      return combineOperands .and left right
    | .or => do
      let left ← parseFilterWithSubqueries left
      let right ← parseFilterWithSubqueries right
      return combineOperands .or left right
    | op =>
      match op.comparison,right with
      | some op,.subquery subquery => scalarSubqueryFilter host executeSql tableAlias left op subquery
      | _,_ => leafFilter host tableAlias (.binaryOp left op right)
  | .nested expr => parseFilterWithSubqueries expr
  | expr => leafFilter host tableAlias expr

def KeepsExpression (conjunct : SqlExpr) : Prop :=
  predicateRequiresExpressionPath host conjunct = true ∧ exprContainsMaterializableSubquery conjunct = false

instance (conjunct : SqlExpr) : Decidable (KeepsExpression host conjunct) := inferInstanceAs (Decidable (_ ∧ _))

/-- The filter and the expression filter that one conjunct contributes. -/
def splitConjunct (conjunct : SqlExpr) : Result (Option Expr × List SqlExpr) :=
  if KeepsExpression host conjunct then
    (safeExpressionPushdownFilter host (singleParser host tableAlias) conjunct).map fun filter =>
      (filter,[conjunct])
  else (parseFilterWithSubqueries host executeSql tableAlias conjunct).map fun filter => (filter,[])

def splitSubqueryAndExpressionFilters (selection : SqlExpr) : Result (Option Expr × List SqlExpr) := do
  let parts ← (sqlAndConjuncts selection).mapM (splitConjunct host executeSql tableAlias)
  return (combineExprFilters (parts.filterMap Prod.fst),parts.flatMap Prod.snd)

end Split
end Dodam.Sql
