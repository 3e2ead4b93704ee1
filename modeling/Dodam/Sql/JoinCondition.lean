import Dodam.Optimizer.JoinInputs

/-! # Join conditions

An ON condition is taken apart into pairs of key columns and a filter on the right input.
-/
namespace Dodam.Sql
open Foundation Execution Optimizer

section Filter
variable (host : Host) (tableAliases : List String)

def joinFilterColumn : SqlExpr → Result String
  | .identifier value => joinColumnName host tableAliases (.identifier value)
  | .compoundIdentifier parts => joinColumnName host tableAliases (.compoundIdentifier parts)
  | .nested expr => joinFilterColumn expr
  | expr => unsupportedSql s!"expected JOIN column or aggregate expression, got {host.display expr}"

def maybeJoinFilterColumn (expr : SqlExpr) : Result (Option String) :=
  match expr with
  | .identifier _ | .compoundIdentifier _ | .nested _ => (joinFilterColumn host tableAliases expr).map some
  | _ => .ok none

def joinColumnComparison (left : SqlExpr) (op : ComparisonOp) (right : SqlExpr) : Result Expr := do
  let column ← joinFilterColumn host tableAliases left
  match ← maybeJoinFilterColumn host tableAliases right with
  | some right => return .columnComparison column op right
  | none =>
    let value ← sqlLiteralValue host right
    return .comparison ⟨column,op,value⟩

def joinComparisonFilter (left : SqlExpr) (op : ComparisonOp) (right : SqlExpr) : Result Expr :=
  match joinFilterColumn host tableAliases left with
  | .ok _ => joinColumnComparison host tableAliases left op right
  | .error error => do
    match ← maybeJoinFilterColumn host tableAliases right with
    | some column =>
      let value ← sqlLiteralValue host left
      return .comparison ⟨column,reverseComparison op,value⟩
    | none => .error error

def unsupportedJoinWhere {α : Type} (expr : SqlExpr) : Result α :=
  unsupportedSql s!"unsupported JOIN WHERE expression: {host.display expr}"

/-- `join_expr_to_filter_expr`, without output aliases and aggregates. -/
def joinExprToFilterExpr : SqlExpr → Result Expr
  | .binaryOp left op right =>
    match op with
    | .and => do return .and (← joinExprToFilterExpr left) (← joinExprToFilterExpr right)
    | .or => do return .or (← joinExprToFilterExpr left) (← joinExprToFilterExpr right)
    | op =>
      match op.comparison with
      | some op => joinComparisonFilter host tableAliases left op right
      | none => unsupportedSql s!"unsupported JOIN WHERE operator: {op.display}"
  | .nested expr => joinExprToFilterExpr expr
  | .value value =>
    match value with
    | .boolean value => .ok (.boolean (some value))
    | .null => .ok (.boolean none)
    | value => unsupportedJoinWhere host (.value value)
  | .between expr negated low high => do
    let column ← joinFilterColumn host tableAliases expr
    let low ← sqlLiteralValue host low
    let high ← sqlLiteralValue host high
    return betweenFilter column negated low high
  | .unaryOp op expr =>
    match op with
    | .not => do return .not (← joinExprToFilterExpr expr)
    | op => unsupportedJoinWhere host (.unaryOp op expr)
  | .isNull expr => do return .isNull (← joinFilterColumn host tableAliases expr) false
  | .isNotNull expr => do return .isNull (← joinFilterColumn host tableAliases expr) true
  | .inList expr list negated => do
    let column ← joinFilterColumn host tableAliases expr
    let hasNull ← literalListContainsNull host list
    let values ← nonNullLiteralValues host list
    return .inList column values negated hasNull
  | .like expr pattern negated any escapeChar caseInsensitive =>
    if any then unsupportedSql ((if caseInsensitive then "ILIKE" else "LIKE") ++ " ANY is not supported")
    else do
      let column ← joinFilterColumn host tableAliases expr
      let pattern ← sqlLikePattern host pattern
      let escape ← sqlLikeEscape escapeChar
      return .like ⟨column,pattern,negated,escape,caseInsensitive⟩
  | expr => unsupportedJoinWhere host expr

end Filter

section Condition
variable (host : Host) (leftAlias rightAlias : String)

inductive JoinConstraint
  | on (expr : SqlExpr)
  | other

inductive JoinOperator
  | join (constraint : JoinConstraint)
  | inner (constraint : JoinConstraint)
  | semi (constraint : JoinConstraint)
  | leftSemi (constraint : JoinConstraint)
  | left (constraint : JoinConstraint)
  | leftOuter (constraint : JoinConstraint)
  | right (constraint : JoinConstraint)
  | rightOuter (constraint : JoinConstraint)
  | fullOuter (constraint : JoinConstraint)
  | other (display : String)

def JoinOperator.kind : JoinOperator → Result (JoinKind × JoinConstraint)
  | join constraint | inner constraint => .ok (.inner,constraint)
  | semi constraint | leftSemi constraint => .ok (.semi,constraint)
  | left constraint | leftOuter constraint => .ok (.left,constraint)
  | right constraint | rightOuter constraint => .ok (.right,constraint)
  | fullOuter constraint => .ok (.full,constraint)
  | other display =>
    unsupportedSql s!"only INNER, LEFT, RIGHT, FULL, and LEFT SEMI JOIN are supported, got {display}"

def unqualifiedColumnIdentifier : SqlExpr → Option String
  | .identifier value => some value
  | .compoundIdentifier [value] => some value
  | _ => none

def maybeJoinColumnName (expr : SqlExpr) : Result (Option String) :=
  match expr with
  | .identifier _ | .compoundIdentifier _ => (joinColumnName host [leftAlias,rightAlias] expr).map some
  | _ => .ok none

/-- `strip_column_prefix`. -/
def stripColumnPrefix (column qualifier : String) : String := (stripJoinPrefix column qualifier).getD column

/-- Every column of the filter loses the qualifier, as in a filter that the optimizer moves to a side. -/
def stripFilterPrefix (expr : Expr) (qualifier : String) : Expr := rewriteJoinSideExpr qualifier expr

def normalizeRightJoinOnFilter (expr : Expr) (kind : JoinKind) : Result Expr :=
  if kind = .inner ∨ kind = .left ∨ kind = .semi then
    if (exprReferencedColumns expr).any fun column => column = leftAlias || (stripJoinPrefix column leftAlias).isSome then
      unsupportedSql "JOIN ON residual filters may only reference the right input"
    else .ok (stripFilterPrefix expr rightAlias)
  else unsupportedSql "JOIN ON residual filters are only supported for INNER, LEFT, and SEMI joins"

def joinOnResidualFilter (expr : SqlExpr) (kind : JoinKind) : Result Expr := do
  let filter ← joinExprToFilterExpr host [leftAlias,rightAlias] expr
  normalizeRightJoinOnFilter leftAlias rightAlias filter kind

/-- The columns of an equality, each on the side of its qualifier. -/
def qualifiedJoinKeys (leftColumn rightColumn : String) : Result (String × String) :=
  match stripJoinPrefix leftColumn leftAlias,stripJoinPrefix rightColumn rightAlias with
  | some left,some right => .ok (left,right)
  | _,_ =>
    match stripJoinPrefix rightColumn leftAlias,stripJoinPrefix leftColumn rightAlias with
    | some left,some right => .ok (left,right)
    | _,_ => unsupportedSql "JOIN condition must compare one column from each side"

inductive JoinPart
  | keys (left right : String)
  | filter (expr : Expr)

def joinEqualityPart (left right : SqlExpr) (kind : JoinKind) : Result JoinPart :=
  match unqualifiedColumnIdentifier left,unqualifiedColumnIdentifier right with
  | some left,some right => .ok (.keys left right)
  | _,_ => do
    let leftColumn ← maybeJoinColumnName host leftAlias rightAlias left
    let rightColumn ← maybeJoinColumnName host leftAlias rightAlias right
    match leftColumn,rightColumn with
    | some leftColumn,some rightColumn =>
      let keys ← qualifiedJoinKeys leftAlias rightAlias leftColumn rightColumn
      return .keys keys.1 keys.2
    | _,_ => return .filter (← joinOnResidualFilter host leftAlias rightAlias (.binaryOp left .eq right) kind)

def joinPart (kind : JoinKind) (expr : SqlExpr) : Result JoinPart :=
  match expr with
  | .binaryOp left .eq right => joinEqualityPart host leftAlias rightAlias left right kind
  | expr => (joinOnResidualFilter host leftAlias rightAlias expr kind).map .filter

structure JoinParts where
  leftKeys : List String
  rightKeys : List String
  rightFilters : List Expr

def JoinParts.add (parts : JoinParts) : JoinPart → JoinParts
  | .keys left right => { parts with leftKeys := parts.leftKeys ++ [left],rightKeys := parts.rightKeys ++ [right] }
  | .filter expr => { parts with rightFilters := parts.rightFilters ++ [expr] }

/-- `collect_join_equalities`: conjunctions are taken apart, but not inside of parentheses. -/
def collectJoinEqualities (kind : JoinKind) (expr : SqlExpr) (parts : JoinParts) : Result JoinParts :=
  match expr with
  | .binaryOp left .and right => do
    let parts ← collectJoinEqualities kind left parts
    collectJoinEqualities kind right parts
  | expr => (joinPart host leftAlias rightAlias kind expr).map parts.add

structure JoinCondition where
  kind : JoinKind
  leftKeys : List String
  rightKeys : List String
  rightFilter : Option Expr

def parseJoinCondition (operator : JoinOperator) : Result JoinCondition := do
  let (kind,constraint) ← operator.kind
  match constraint with
  | .other => unsupportedSql "JOIN requires equality ON conditions"
  | .on expr =>
    let parts ← collectJoinEqualities host leftAlias rightAlias kind expr ⟨[],[],[]⟩
    if parts.leftKeys = [] then unsupportedSql "JOIN requires at least one equality ON condition"
    else return ⟨kind,parts.leftKeys,parts.rightKeys,combineExprFilters parts.rightFilters⟩

end Condition
end Dodam.Sql
