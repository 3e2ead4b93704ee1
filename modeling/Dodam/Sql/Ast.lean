import Dodam.Execution.Filter.Expr

/-! # SQL expressions

The part of the parser's expression tree that the modelled code looks at, and the few things it
takes from outside: how an expression is printed in an error, and the arithmetic of
floating-point numbers, which are given by the text that `Display` prints for them.
-/
namespace Dodam.Sql
open Execution

inductive Value
  | number (text : String) (long : Bool)
  | singleQuotedString (text : String)
  | doubleQuotedString (text : String)
  | boolean (value : Bool)
  | null
  | other (display : String)
deriving DecidableEq

inductive BinaryOperator
  | plus
  | minus
  | multiply
  | divide
  | and
  | or
  | eq
  | notEq
  | lt
  | ltEq
  | gt
  | gtEq
  | other (display : String)
deriving DecidableEq

inductive UnaryOperator
  | not
  | plus
  | minus
  | other (display : String)
deriving DecidableEq

inductive DateTimeField
  | year
  | month
  | day
  | other (display : String)
deriving DecidableEq

abbrev Query := String

/-- A function call has no modifiers and unnamed arguments; every other form of expression is `other`. -/
inductive SqlExpr
  | identifier (value : String)
  | compoundIdentifier (parts : List String)
  | value (value : Value)
  | typedString (dataType : String) (value : Value)
  | interval (value : SqlExpr) (leadingField : Option DateTimeField)
  | binaryOp (left : SqlExpr) (op : BinaryOperator) (right : SqlExpr)
  | unaryOp (op : UnaryOperator) (expr : SqlExpr)
  | nested (expr : SqlExpr)
  | isNull (expr : SqlExpr)
  | isNotNull (expr : SqlExpr)
  | inList (expr : SqlExpr) (list : List SqlExpr) (negated : Bool)
  | inSubquery (expr : SqlExpr) (subquery : Query) (negated : Bool)
  | existsSubquery (subquery : Query) (negated : Bool)
  | subquery (subquery : Query)
  | between (expr : SqlExpr) (negated : Bool) (low high : SqlExpr)
  | like (expr pattern : SqlExpr) (negated any : Bool) (escapeChar : Option Value) (caseInsensitive : Bool)
  | function (name : List String) (args : List SqlExpr)
  | cast (expr : SqlExpr) (dataType : String)
  | substring (expr : SqlExpr) (substringFrom substringFor : Option SqlExpr)
  | other (display : String)

/-- Floating-point arithmetic on printed numbers; a stored decimal is divided by the power of ten of its scale. -/
structure Floats where
  parse : String → Option String
  ofInt : Int64 → String
  ofDecimal : ℤ → Int8 → String
  add : String → String → String
  sub : String → String → String
  neg : String → String
  partialCmp : String → String → Option Ordering

/-- A value prints as the expression it is. The forms of expression that are left out are read as a scalar, or
refused, by `readsOther`. -/
structure Host where
  floats : Floats
  display : SqlExpr → String
  readsOther : String → Execution.Result Unit

/-- A host that knows no floating-point number and prints nothing. -/
def textHost : Host where
  floats := ⟨fun _ => none,fun _ => "",fun _ _ => "",fun _ _ => "",fun _ _ => "",fun text => text,fun _ _ => none⟩
  display _ := ""
  readsOther _ := .ok ()

theorem textHost_partialCmp (a b : String) : textHost.floats.partialCmp a b = none :=
  rfl

namespace BinaryOperator

/-- The comparison operators, as `sql_comparison_op` maps them. -/
def comparison : BinaryOperator → Option ComparisonOp
  | eq => some .eq
  | notEq => some .notEq
  | lt => some .lt
  | ltEq => some .ltEq
  | gt => some .gt
  | gtEq => some .gtEq
  | _ => none

def display : BinaryOperator → String
  | plus => "+"
  | minus => "-"
  | multiply => "*"
  | divide => "/"
  | and => "AND"
  | or => "OR"
  | eq => "="
  | notEq => "<>"
  | lt => "<"
  | ltEq => "<="
  | gt => ">"
  | gtEq => ">="
  | other text => text

end BinaryOperator

end Dodam.Sql
