import Dodam.Sql.Columns
import Dodam.Sql.LiteralValues

/-! # Reading a predicate as a filter

`sql_expr_to_filter_expr`, without output aliases and aggregates: comparisons of
a column with a literal or a column, IN lists, BETWEEN, LIKE and NULL tests on a
column, constants, and their combinations.
-/
namespace Dodam.Sql
open Foundation Execution

section Parse
variable (host : Host) (tableAlias : Option String)

def sqlLikePattern (expr : SqlExpr) : Result String := do
  match ← sqlLiteralValue host expr with
  | .utf8 pattern => return pattern
  | .null => unsupportedSql "LIKE NULL patterns are not supported yet"
  | value => unsupportedSql s!"LIKE pattern must be a string literal, got {value.display}"

def sqlLikeEscape : Option Value → Result (Option Char)
  | none => .ok none
  | some (.singleQuotedString text) =>
    match text.toList with
    | [char] => .ok (some char)
    | _ => unsupportedSql "LIKE ESCAPE must contain exactly one character"
  | some _ => unsupportedSql "LIKE ESCAPE must be a string literal"

def sqlFilterColumn : SqlExpr → Result String
  | .identifier value => sqlColumnName host tableAlias (.identifier value)
  | .compoundIdentifier parts => sqlColumnName host tableAlias (.compoundIdentifier parts)
  | .nested expr => sqlFilterColumn expr
  | expr => unsupportedSql s!"expected column or aggregate expression, got {host.display expr}"

def maybeSqlFilterColumn (expr : SqlExpr) : Result (Option String) :=
  match expr with
  | .identifier _ | .compoundIdentifier _ | .nested _ => (sqlFilterColumn host tableAlias expr).map some
  | _ => .ok none

/-- A comparison of two columns, or of a column and a literal. -/
def columnFilter (left : SqlExpr) (op : ComparisonOp) (right : SqlExpr) : Result Expr := do
  let column ← sqlFilterColumn host tableAlias left
  match ← maybeSqlFilterColumn host tableAlias right with
  | some right => return .columnComparison column op right
  | none =>
    let value ← sqlLiteralValue host right
    return .comparison ⟨column,op,value⟩

def comparisonFilter (left : SqlExpr) (op : ComparisonOp) (right : SqlExpr) : Result Expr :=
  match sqlLiteralValue host left,sqlLiteralValue host right with
  | .ok left,.ok right => (compareLiteralValues host.floats left op right).map .boolean
  | _,_ => columnFilter host tableAlias left op right

def betweenFilter (column : String) (negated : Bool) (low high : LiteralValue) : Expr :=
  if negated then .or (.comparison ⟨column,.lt,low⟩) (.comparison ⟨column,.gt,high⟩)
  else .and (.comparison ⟨column,.gtEq,low⟩) (.comparison ⟨column,.ltEq,high⟩)

def inListFilter (expr : SqlExpr) (list : List SqlExpr) (negated : Bool) : Result Expr :=
  match sqlFilterColumn host tableAlias expr with
  | .ok column => do
    let hasNull ← literalListContainsNull host list
    let values ← nonNullLiteralValues host list
    return .inList column values negated hasNull
  | .error error =>
    match sqlLiteralValue host expr with
    | .ok value => (evaluateLiteralInList host value list negated).map .boolean
    | .error _ => .error error

def unsupportedWhere {α : Type} (expr : SqlExpr) : Result α :=
  unsupportedSql s!"unsupported WHERE expression: {host.display expr}"

def sqlExprToFilterExpr : SqlExpr → Result Expr
  | .binaryOp left op right =>
    match op with
    | .and => do return .and (← sqlExprToFilterExpr left) (← sqlExprToFilterExpr right)
    | .or => do return .or (← sqlExprToFilterExpr left) (← sqlExprToFilterExpr right)
    | op =>
      match op.comparison with
      | some op => comparisonFilter host tableAlias left op right
      | none => unsupportedSql s!"unsupported WHERE operator: {op.display}"
  | .nested expr => sqlExprToFilterExpr expr
  | .value value =>
    match value with
    | .boolean value => .ok (.boolean (some value))
    | .null => .ok (.boolean none)
    | value => unsupportedWhere host (.value value)
  | .between expr negated low high => do
    let column ← sqlFilterColumn host tableAlias expr
    let low ← sqlLiteralValue host low
    let high ← sqlLiteralValue host high
    return betweenFilter column negated low high
  | .unaryOp op expr =>
    match op with
    | .not => do return .not (← sqlExprToFilterExpr expr)
    | op => unsupportedWhere host (.unaryOp op expr)
  | .isNull expr => do return .isNull (← sqlFilterColumn host tableAlias expr) false
  | .isNotNull expr => do return .isNull (← sqlFilterColumn host tableAlias expr) true
  | .inList expr list negated => inListFilter host tableAlias expr list negated
  | .like expr pattern negated any escapeChar caseInsensitive =>
    if any then unsupportedSql ((if caseInsensitive then "ILIKE" else "LIKE") ++ " ANY is not supported")
    else do
      let column ← sqlFilterColumn host tableAlias expr
      let pattern ← sqlLikePattern host pattern
      let escape ← sqlLikeEscape escapeChar
      return .like ⟨column,pattern,negated,escape,caseInsensitive⟩
  | expr => unsupportedWhere host expr

end Parse
end Dodam.Sql
