import Dodam.Execution.Error
import Dodam.Foundation.Fold
import Dodam.Foundation.Machine
import Dodam.Foundation.Numeral

/-! # Literals of a filter

How a literal is read for a column of a given type: as an integer, as a decimal at the scale of
the column, as a date or as an instant in the unit of the column.
-/
namespace Dodam.Execution
open Foundation

inductive LiteralValue
  | null
  | boolean (value : Bool)
  | int64 (value : Int64)
  | float64 (display : String)
  | utf8 (value : String)
deriving DecidableEq

def LiteralValue.display : LiteralValue → String
  | .null => "NULL"
  | .boolean value => toString value
  | .int64 value => toString value.toInt
  | .float64 display => display
  | .utf8 value => value

/-- The `InvalidFilter` error of a comparison. -/
def invalidComparison {α : Type*} (column value : String) : Result α := invalidFilter s!"{column}={value}"

def okOr {α : Type*} (value : Option α) (error : Result α) : Result α :=
  match value with
  | some value => .ok value
  | none => error

section Text

/-- `char::is_whitespace`: the Unicode property `White_Space`. -/
def isWhitespace (c : Char) : Bool :=
  let n := c.toNat
  (9 ≤ n && n ≤ 13) || n = 0x20 || n = 0x85 || n = 0xa0 || n = 0x1680 || (0x2000 ≤ n && n ≤ 0x200a) ||
    n = 0x2028 || n = 0x2029 || n = 0x202f || n = 0x205f || n = 0x3000

def trim (text : List Char) : List Char := trimBy isWhitespace text

def parseDigits (text : List Char) : Option ℕ :=
  if text ≠ [] ∧ text.all Char.isDigit then some (digitsValue text) else none

/-- `str::parse` at the signed type of `w` bits. -/
def parseSigned (w : ℕ) (text : List Char) : Option ℤ :=
  let exact : Option ℤ :=
    match text with
    | '-' :: digits => (parseDigits digits).map fun n => -(n : ℤ)
    | '+' :: digits => (parseDigits digits).map fun n => (n : ℤ)
    | digits => (parseDigits digits).map fun n => (n : ℤ)
  exact.bind (checkedSigned w)

/-- `str::parse` at the unsigned type of `w` bits. -/
def parseUnsigned (w : ℕ) (text : List Char) : Option ℕ :=
  let exact :=
    match text with
    | '+' :: digits => parseDigits digits
    | digits => parseDigits digits
  exact.filter (· ≤ maxUnsigned w)

end Text

section Decimal

def decimalScaleFactor (scale : ℕ) : Result ℤ :=
  (List.range scale).foldlM (fun factor _ =>
    okOr (checkedSigned 128 (factor * 10)) (invalidFilter "decimal scale is too large")) 1

/-- `strip_prefix(['-', '+'])`, where there is one. -/
def stripSign : List Char → List Char
  | '-' :: rest => rest
  | '+' :: rest => rest
  | value => value

/-- The sign, the whole and the fractional digits of a trimmed decimal text. -/
def decimalParts (value : List Char) : Option (Bool × List Char × List Char) :=
  let negative := value.head? = some '-'
  let unsigned := stripSign value
  let (whole,fractional) := (splitOnce '.' unsigned).getD (unsigned,[])
  if whole.isEmpty ∨ ¬ whole.all Char.isDigit then none
  else if ¬ fractional.all Char.isDigit then none
  else some (negative,whole,fractional)

def decimalStringAsI128 (value : String) (scale : ℕ) (column : String) : Result ℤ :=
  let value := trim value.toList
  let error := invalidComparison column (String.ofList value)
  if value.isEmpty then error
  else
    match decimalParts value with
    | none => error
    | some (negative,whole,fractional) => do
      let fractional := fractional.take (min fractional.length scale)
      let whole ← okOr (parseSigned 128 whole) error
      let factor ← decimalScaleFactor scale
      let result ← okOr (checkedSigned 128 (whole * factor)) error
      let fractionalValue ← (List.range (scale - fractional.length)).foldlM (fun value _ =>
        okOr (checkedSigned 128 (value * 10)) error) ((parseSigned 128 fractional).getD 0)
      let result ← okOr (checkedSigned 128 (result + fractionalValue)) error
      return if negative then -result else result

def decimalLiteralAsI128 (value : LiteralValue) (scale : Int8) (column : String) : Result ℤ :=
  if scale.toInt < 0 then invalidComparison column value.display
  else
    let scale := scale.toInt.toNat
    match value with
    | .int64 n => do
      let factor ← decimalScaleFactor scale
      okOr (checkedSigned 128 (n.toInt * factor)) (invalidComparison column value.display)
    | .float64 display => decimalStringAsI128 display scale column
    | .utf8 text => decimalStringAsI128 text scale column
    | .null | .boolean _ => invalidComparison column value.display

end Decimal

section Time

inductive TimeUnit
  | second
  | millisecond
  | microsecond
  | nanosecond
deriving DecidableEq, Repr

def daysFromCivil (year : ℤ) (month day : ℕ) : ℤ :=
  let year := year - if month ≤ 2 then 1 else 0
  let era := (if 0 ≤ year then year else year - 399).tdiv 400
  let yoe := year - era * 400
  let doy := (153 * ((month : ℤ) + if 2 < month then -3 else 9) + 2).tdiv 5 + day - 1
  let doe := yoe * 365 + yoe.tdiv 4 - yoe.tdiv 100 + doy
  era * 146097 + doe - 719468

/-- Three numbers between hyphens, as a year, a month and a day of the month. -/
def parseDateParts (date : List Char) : Option (ℤ × ℕ × ℕ) :=
  match splitAll '-' date with
  | [year,month,day] => do
    let year ← parseSigned 32 year
    let month ← parseUnsigned 32 month
    let day ← parseUnsigned 32 day
    if 1 ≤ month ∧ month ≤ 12 ∧ 1 ≤ day ∧ day ≤ 31 then some (year,month,day) else none
  | _ => none

def parseDateDays (value : List Char) : Option ℤ :=
  let value := trim value
  let date := value.takeWhile fun c => c ≠ ' ' ∧ c ≠ 'T'
  (parseDateParts date).map fun (year,month,day) => daysFromCivil year month day

/-- The time and its offset in minutes. Hours have no lower bound, so the product may wrap. -/
def splitTimeOffset (time : List Char) : Option (List Char × ℤ) :=
  let time := trim time
  if time.getLast? = some 'Z' then some (time.dropLast,0)
  else
    match (time.drop 1).findIdx? fun c => c = '+' ∨ c = '-' with
    | none => some (time,0)
    | some index => do
      let offset := time.drop (index + 1)
      let sign := if offset.head? = some '-' then -1 else 1
      let (hours,minutes) ← splitOnce ':' (offset.drop 1)
      let hours ← parseSigned 64 hours
      let minutes ← parseSigned 64 minutes
      if 23 < hours ∨ 59 < minutes then none
      else some (time.take (index + 1),wrapSigned 64 (sign * (hours * 60 + minutes)))

def parseTimeParts (time : List Char) : Option (ℕ × ℕ × ℕ) := do
  let (hour,minute,second) ← match splitAll ':' time with
    | [hour] => some (hour,['0'],['0'])
    | [hour,minute] => some (hour,minute,['0'])
    | [hour,minute,second] => some (hour,minute,second)
    | _ => none
  let hour ← parseUnsigned 32 hour
  let minute ← parseUnsigned 32 minute
  let second ← parseUnsigned 32 second
  if 23 < hour ∨ 59 < minute ∨ 59 < second then none else some (hour,minute,second)

def parseTimestampMillis (value : List Char) : Option ℤ := do
  let value := trim value
  let (date,timeWithZone) :=
    ((splitOnce ' ' value).or (splitOnce 'T' value)).getD (value,"00:00:00".toList)
  let (time,offsetMinutes) ← splitTimeOffset timeWithZone
  let (year,month,day) ← parseDateParts date
  let (hour,minute,second) ← parseTimeParts time
  let millis ← checkedSigned 64 (daysFromCivil year month day * 86400000)
  let millis ← checkedSigned 64 (millis + hour * 3600000)
  let millis ← checkedSigned 64 (millis + minute * 60000)
  let millis ← checkedSigned 64 (millis + second * 1000)
  checkedSigned 64 (millis - wrapSigned 64 (offsetMinutes * 60000))

def timestampLiteralMillis (value : LiteralValue) (column : String) : Result ℤ :=
  match value with
  | .int64 n => .ok n.toInt
  | .utf8 text => okOr (parseTimestampMillis text.toList) (invalidComparison column text)
  | .null | .boolean _ | .float64 _ => invalidComparison column value.display

def timestampLiteralAsI64 (value : LiteralValue) (unit : TimeUnit) (column : String) : Result ℤ := do
  let millis ← timestampLiteralMillis value column
  match unit with
  | .second => return millis.tdiv 1000
  | .millisecond => return millis
  | .microsecond =>
    okOr (checkedSigned 64 (millis * 1000)) (invalidComparison column value.display)
  | .nanosecond =>
    okOr (checkedSigned 64 (millis * 1000000)) (invalidComparison column value.display)

end Time
end Dodam.Execution
