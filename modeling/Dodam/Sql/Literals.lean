import Dodam.Sql.Ast
import Dodam.Sql.Dates

/-! # Literal expressions

Which SQL expressions are folded to a literal and to which one: numbers, strings,
sums and differences of literals, dates moved by an interval, signs and
substrings. Sums of 64-bit literals wrap.
-/
namespace Dodam.Sql
open Foundation Execution

/-- `str::eq_ignore_ascii_case`. -/
def eqIgnoreAsciiCase (a b : String) : Bool := a.toList.map Char.toLower = b.toList.map Char.toLower

section Numbers
variable (floats : Floats)

def numericLiteralText : SqlExpr → Option String
  | .value (.number text false) => some text
  | _ => none

def decimalScale (value : List Char) : ℕ := ((splitOnce '.' value).map fun parts => parts.2.length).getD 0

def unsupportedNumeric {α : Type} (literal : String) : Result α :=
  unsupportedSql s!"unsupported numeric literal: {literal}"

def numericOverflow {α : Type} : Result α := unsupportedSql "numeric literal overflow"

def decimalLiteralToScaled (value : String) (scale : ℕ) : Result ℤ :=
  match decimalParts value.toList with
  | none => unsupportedNumeric value
  | some (negative,whole,fractional) =>
    if scale < fractional.length then unsupportedNumeric value
    else do
      let whole ← okOr (parseSigned 128 whole) (unsupportedNumeric value)
      let result ← okOr (checkedSigned 128 (whole * wrapSigned 128 (10 ^ scale))) numericOverflow
      let fractionalValue ← (List.range (scale - fractional.length)).foldlM (fun value _ =>
        okOr (checkedSigned 128 (value * 10)) numericOverflow) ((parseSigned 128 fractional).getD 0)
      let result ← okOr (checkedSigned 128 (result + fractionalValue)) numericOverflow
      return if negative then -result else result

/-- The text of a scaled number with a point before its last `scale` digits. -/
def scaledText (value factor : ℤ) (scale : ℕ) : String :=
  let magnitude := wrapSigned 128 |value|
  (if value < 0 then "-" else "") ++ toString (magnitude.tdiv factor) ++ "." ++
    zeroPadded scale (magnitude.tmod factor)

/-- The sum or the difference of two number tokens, exact up to the last parse. -/
def decimalNumberLiteralArithmetic (left : SqlExpr) (subtract : Bool) (right : SqlExpr) :
    Result (Option LiteralValue) :=
  match numericLiteralText left,numericLiteralText right with
  | some left,some right => do
    let scale := max (decimalScale left.toList) (decimalScale right.toList)
    let left ← decimalLiteralToScaled left scale
    let right ← decimalLiteralToScaled right scale
    let value := wrapSigned 128 (if subtract then left - right else left + right)
    if scale = 0 then
      let value ← okOr (checkedSigned 64 value) numericOverflow
      return some (.int64 (Int64.ofInt value))
    else
      let factor := wrapSigned 128 (10 ^ scale)
      if factor = 0 then .error .panicked
      else
        let literal := scaledText value factor scale
        let display ← okOr (floats.parse literal) (unsupportedNumeric literal)
        return some (.float64 display)
  | _,_ => .ok none

def literalAsF64 : LiteralValue → Result String
  | .int64 value => .ok (floats.ofInt value)
  | .float64 display => .ok display
  | value => unsupportedSql s!"expected numeric literal, got {value.display}"

def applyLiteralArithmetic (left : LiteralValue) (subtract : Bool) (right : LiteralValue) : Result LiteralValue :=
  match left,right with
  | .int64 left,.int64 right => .ok (.int64 (if subtract then left - right else left + right))
  | left,right => do
    let left ← literalAsF64 floats left
    let right ← literalAsF64 floats right
    return .float64 (if subtract then floats.sub left right else floats.add left right)

def negateLiteral : LiteralValue → Result LiteralValue
  | .int64 value => do
    let value ← okOr (checkedSigned 64 (-value.toInt)) (unsupportedSql "integer literal overflow")
    return .int64 (Int64.ofInt value)
  | .float64 display => .ok (.float64 (floats.neg display))
  | value => unsupportedSql s!"unary minus requires a numeric literal, got {value.display}"

end Numbers

section Intervals
variable (host : Host)

def intervalLiteral (expr : SqlExpr) : Result (Option (ℤ × DateTimeField)) :=
  match expr with
  | .interval (.value value) field => do
    let amount ← match value with
      | .singleQuotedString text | .doubleQuotedString text => .ok text
      | value => unsupportedSql s!"unsupported INTERVAL literal: {host.display (.value value)}"
    let amount ← okOr (parseSigned 64 amount.toList) (unsupportedSql s!"unsupported INTERVAL: {host.display expr}")
    let field ← okOr field (unsupportedSql s!"INTERVAL requires a leading field: {host.display expr}")
    return some (amount,field)
  | .interval value _ => unsupportedSql s!"unsupported INTERVAL value: {host.display value}"
  | _ => .ok none

def applyDateInterval (value : LiteralValue) (subtract : Bool) (amount : ℤ) (field : DateTimeField) :
    Result LiteralValue :=
  match value with
  | .utf8 date => do
    let amount := if subtract then wrapSigned 64 (-amount) else amount
    let date ← parseYmd date
    let date ← match field with
      | .day => civilFromDays (wrapSigned 64 (daysFromCivil date + amount))
      | .month => addMonths date amount
      | .year => addMonths date (wrapSigned 64 (amount * 12))
      | .other field => unsupportedSql s!"unsupported INTERVAL field for DATE arithmetic: {field}"
    return .utf8 (dateText date)
  | _ => unsupportedSql "INTERVAL arithmetic currently requires a DATE literal"

end Intervals

section Value
variable (host : Host)

def literalOfValue : Value → Result LiteralValue
  | .number text false =>
    match parseSigned 64 text.toList,host.floats.parse text with
    | some value,_ => .ok (.int64 (Int64.ofInt value))
    | none,some display => .ok (.float64 display)
    | none,none => unsupportedNumeric text
  | .singleQuotedString text | .doubleQuotedString text => .ok (.utf8 text)
  | .boolean value => .ok (.boolean value)
  | .null => .ok .null
  | value => unsupportedSql s!"unsupported literal: {host.display (.value value)}"

def expectedLiteral (expr : SqlExpr) : Result LiteralValue :=
  unsupportedSql s!"expected literal, got {host.display expr}"

def literalOfTypedString (dataType : String) (value : Value) : Result LiteralValue :=
  if eqIgnoreAsciiCase dataType "date" then
    match value with
    | .singleQuotedString text | .doubleQuotedString text => .ok (.utf8 text)
    | value => unsupportedSql s!"unsupported DATE literal: {host.display (.value value)}"
  else expectedLiteral host (.typedString dataType value)

/-- `literal_usize`, on the literal of the expression. -/
def literalUsize (context : String) (value : Result LiteralValue) : Result ℕ :=
  value.bind fun value =>
    match value with
    | .int64 value =>
      if 0 ≤ value.toInt then .ok value.toInt.toNat else unsupportedSql s!"{context} must be non-negative"
    | _ => unsupportedSql s!"{context} must be an integer literal"

def substringLiteral (value : String) (start : ℕ) (length : Option ℕ) : String :=
  let rest := value.toList.drop (start - 1)
  String.ofList (length.elim rest rest.take)

mutual

def sqlLiteralValue : SqlExpr → Result LiteralValue
  | .value value => literalOfValue host value
  | .typedString dataType value => literalOfTypedString host dataType value
  | .binaryOp left op right =>
    if op = .plus ∨ op = .minus then do
      match ← decimalNumberLiteralArithmetic host.floats left (op = .minus) right with
      | some value => return value
      | none =>
        let leftValue ← sqlLiteralValue left
        match ← intervalLiteral host right with
        | some (amount,field) => applyDateInterval leftValue (op = .minus) amount field
        | none =>
          let rightValue ← sqlLiteralValue right
          applyLiteralArithmetic host.floats leftValue (op = .minus) rightValue
    else expectedLiteral host (.binaryOp left op right)
  | .unaryOp op expr =>
    match op with
    | .plus => sqlLiteralValue expr
    | .minus => (sqlLiteralValue expr).bind (negateLiteral host.floats)
    | op => expectedLiteral host (.unaryOp op expr)
  | .substring expr substringFrom substringFor => do
    match ← sqlLiteralValue expr with
    | .utf8 value =>
      let start ← literalUsizeOption "SUBSTRING start" substringFrom
      match start with
      | none => unsupportedSql "SUBSTRING requires a FROM/start expression"
      | some start =>
        let length ← literalUsizeOption "SUBSTRING length" substringFor
        return .utf8 (substringLiteral value start length)
    | _ => unsupportedSql s!"SUBSTRING literal input must be a string, got {host.display expr}"
  | expr => expectedLiteral host expr

def literalUsizeOption (context : String) : Option SqlExpr → Result (Option ℕ)
  | none => .ok none
  | some expr => (literalUsize context (sqlLiteralValue expr)).map some

end

end Value
end Dodam.Sql
