import Dodam.Sql.Columns

/-! # Scalar expressions

The parser of scalar expressions, which evaluates literals, resolves columns and checks the
arguments of the known functions.
-/
namespace Dodam.Sql
open Foundation Execution

inductive ScalarSqlExpression
  | column (name : String)
  | structField (column field : String)
  | listLength (column : String) (field : Option String)
  | literal (value : LiteralValue)
  | binary (left : ScalarSqlExpression) (op : BinaryOperator) (right : ScalarSqlExpression)
  | cast (expr : ScalarSqlExpression) (target : String)
  | coalesce (values : List ScalarSqlExpression)
  | lower (expr : ScalarSqlExpression)
  | upper (expr : ScalarSqlExpression)
  | length (expr : ScalarSqlExpression)
  | trim (expr : ScalarSqlExpression)
  | abs (expr : ScalarSqlExpression)
  | round (expr : ScalarSqlExpression)
  | floor (expr : ScalarSqlExpression)
  | ceil (expr : ScalarSqlExpression)
  | replace (expr source target : ScalarSqlExpression)
  | concat (values : List ScalarSqlExpression)
  | substring (expr start : ScalarSqlExpression) (length : Option ScalarSqlExpression)
  | other (display : String)

/-- What the two parsers of scalar expressions do differently. -/
structure ScalarParser where
  column : SqlExpr → Result ScalarSqlExpression
  foldsSigns : Bool
  functionKind : String
  expressionKind : String

def exactlyOneArgument {α : Type} (name : String) : Result α :=
  unsupportedSql s!"{name} requires exactly one argument"

/-- `scalar_function_expression`, after the check that the name is known. -/
def scalarFunctionExpression (name : String) (values : List ScalarSqlExpression) :
    Option (Result ScalarSqlExpression) :=
  let one (build : ScalarSqlExpression → ScalarSqlExpression) : Option (Result ScalarSqlExpression) :=
    some (match values with
      | [value] => .ok (build value)
      | _ => exactlyOneArgument name)
  let listLength : Option (Result ScalarSqlExpression) :=
    some (match values with
      | [.column column] => .ok (.listLength column none)
      | [.structField column field] => .ok (.listLength column (some field))
      | [_] => unsupportedSql s!"{name} currently requires a list column or struct list field"
      | _ => exactlyOneArgument name)
  match String.ofList (name.toList.map Char.toLower) with
  | "coalesce" =>
    some (if values.isEmpty then unsupportedSql "COALESCE requires at least one argument" else .ok (.coalesce values))
  | "concat" =>
    some (if values.isEmpty then unsupportedSql "CONCAT requires at least one argument" else .ok (.concat values))
  | "replace" =>
    some (match values with
      | [expr,source,target] => .ok (.replace expr source target)
      | _ => unsupportedSql "REPLACE requires exactly three arguments")
  | "lower" => one .lower
  | "upper" => one .upper
  | "length" => one .length
  | "trim" => one .trim
  | "abs" => one .abs
  | "round" => one .round
  | "floor" => one .floor
  | "ceil" => one .ceil
  | "array_length" => listLength
  | "list_length" => listLength
  | _ => none

/-- The name of a function, which has one part. -/
def objectNameToString : List String → Result String
  | [name] => .ok name
  | parts => unsupportedSql ("compound object names are not supported: " ++ ".".intercalate parts)

section Parse
variable (host : Host) (parser : ScalarParser)

mutual

def parseScalarExpression : SqlExpr → Result ScalarSqlExpression
  | .identifier value => parser.column (.identifier value)
  | .compoundIdentifier parts => parser.column (.compoundIdentifier parts)
  | .value value => (literalOfValue host value).map .literal
  | .typedString dataType value =>
    match value with
    | .singleQuotedString text | .doubleQuotedString text => .ok (.cast (.literal (.utf8 text)) dataType)
    | value => unsupportedSql s!"unsupported typed string literal: {host.display (.value value)}"
  | .unaryOp op expr =>
    if parser.foldsSigns ∧ (op = .minus ∨ op = .plus) ∧ (sqlLiteralValue host expr).toOption.isSome then
      (sqlLiteralValue host (.unaryOp op expr)).map .literal
    else unsupportedSql s!"unsupported {parser.expressionKind} expression: {host.display (.unaryOp op expr)}"
  | .nested expr => parseScalarExpression expr
  | .binaryOp left op right =>
    if op = .plus ∨ op = .minus ∨ op = .multiply ∨ op = .divide then
      match sqlLiteralValue host (.binaryOp left op right) with
      | .ok value => .ok (.literal value)
      | .error _ => do
        let left ← parseScalarExpression left
        let right ← parseScalarExpression right
        return .binary left op right
    else unsupportedSql s!"unsupported {parser.expressionKind} expression: {host.display (.binaryOp left op right)}"
  | .cast expr dataType => (parseScalarExpression expr).map fun expr => .cast expr dataType
  | .function name args => do
    let name ← objectNameToString name
    if (scalarFunctionExpression name []).isNone then
      unsupportedSql s!"unsupported {parser.functionKind}scalar function: {host.display (.function [name] args)}"
    else
      let values ← parseScalarList args
      (scalarFunctionExpression name values).getD
        (unsupportedSql s!"unsupported {parser.functionKind}scalar function: {host.display (.function [name] args)}")
  | .substring expr substringFrom substringFor => do
    if substringFrom.isNone then unsupportedSql "SUBSTRING requires a FROM/start expression"
    else
      let expr ← parseScalarExpression expr
      let start ← parseScalarOption substringFrom
      let length ← parseScalarOption substringFor
      match start with
      | some start => return .substring expr start length
      | none => unsupportedSql "SUBSTRING requires a FROM/start expression"
  | .other display => (host.readsOther display).map fun _ => .other display
  | expr => unsupportedSql s!"unsupported {parser.expressionKind} expression: {host.display expr}"

def parseScalarList : List SqlExpr → Result (List ScalarSqlExpression)
  | [] => .ok []
  | expr :: exprs => do
    let value ← parseScalarExpression expr
    let values ← parseScalarList exprs
    return value :: values

def parseScalarOption : Option SqlExpr → Result (Option ScalarSqlExpression)
  | none => .ok none
  | some expr => (parseScalarExpression expr).map some

end

end Parse

section Readers
variable (host : Host)

def singleColumn (tableAlias : Option String) (expr : SqlExpr) : Result ScalarSqlExpression :=
  match parseStructFieldAccess tableAlias expr with
  | some (column,field) => .ok (.structField column field)
  | none => (sqlColumnName host tableAlias expr).map .column

def joinColumn (tableAliases : List String) (expr : SqlExpr) : Result ScalarSqlExpression := do
  match ← parseJoinStructFieldAccess tableAliases expr with
  | some (column,field) => return .structField column field
  | none => (joinColumnName host tableAliases expr).map .column

def singleParser (tableAlias : Option String) : ScalarParser :=
  ⟨singleColumn host tableAlias,true,"","SELECT"⟩

def joinParser (tableAliases : List String) : ScalarParser :=
  ⟨joinColumn host tableAliases,false,"JOIN ","JOIN scalar"⟩

def parseScalarSqlExpression (tableAlias : Option String) (expr : SqlExpr) : Result ScalarSqlExpression :=
  parseScalarExpression host (singleParser host tableAlias) expr

def parseJoinScalarSqlExpression (tableAliases : List String) (expr : SqlExpr) : Result ScalarSqlExpression :=
  parseScalarExpression host (joinParser host tableAliases) expr

end Readers
end Dodam.Sql
