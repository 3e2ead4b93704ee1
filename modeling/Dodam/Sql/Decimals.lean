import Dodam.Sql.Literals

/-! # Decimals

Decimals are 128-bit integers at a scale: the powers of ten of their scales,
their alignment and their rounding, the decimals that a text is read as and the
texts that a decimal is printed as.
-/
namespace Dodam.Sql
open Foundation Execution

section Scales

def decimalScaleI128 (scale : Int8) : Option ℤ :=
  if scale.toInt < 0 then none else checkedSigned 128 (10 ^ scale.toInt.toNat)

def decimalAlignFactor (fromScale toScale : Int8) : Result ℤ :=
  if toScale < fromScale then
    unsupportedSql s!"cannot align decimal scale {fromScale.toInt} to lower scale {toScale.toInt}"
  else okOr (decimalScaleI128 (toScale - fromScale)) (unsupportedSql "decimal scale alignment overflow")

def alignDecimalValue (value : ℤ) (fromScale toScale : Int8) : Result ℤ := do
  let factor ← decimalAlignFactor fromScale toScale
  okOr (checkedSigned 128 (value * factor)) (unsupportedSql "decimal scale alignment overflow")

def decimalCastOverflow {α : Type} : Result α := invalidCast "decimal cast overflow"

def validateDecimalPrecision (value : ℤ) (precision : UInt8) : Result ℤ := do
  let limit ← okOr (decimalScaleI128 precision.toInt8) (invalidCast "decimal precision overflows")
  if limit ≤ |value| then
    invalidCast s!"decimal value {value} is out of range for precision {precision.toNat}"
  else return value

/-- Half of the factor or more is rounded away from zero. -/
def roundDecimalToLowerScale (value : ℤ) (fromScale toScale : Int8) : Result ℤ := do
  let factor ← decimalAlignFactor toScale fromScale
  let quotient := value.tdiv factor
  let remainder := value.tmod factor
  if factor ≤ |remainder| * 2 ∧ (checkedSigned 128 (|remainder| * 2)).isSome then
    okOr (checkedSigned 128 (quotient + if value < 0 then -1 else 1)) decimalCastOverflow
  else return quotient

def rescaleDecimalValue (value : ℤ) (fromScale toScale : Int8) (precision : UInt8) : Result ℤ := do
  let value ←
    if fromScale ≤ toScale then alignDecimalValue value fromScale toScale
    else roundDecimalToLowerScale value fromScale toScale
  validateDecimalPrecision value precision

def scaleOverflows {α : Type} (scale : Int8) : Result α := invalidCast s!"decimal scale {scale.toInt} overflows"

def decimalOfInt (value : Int64) (precision : UInt8) (scale : Int8) : Result ℤ := do
  let factor ← okOr (decimalScaleI128 scale) (scaleOverflows scale)
  let value ← okOr (checkedSigned 128 (value.toInt * factor)) decimalCastOverflow
  validateDecimalPrecision value precision

end Scales

section Texts

/-- Digits beyond the scale are dropped; the first of them rounds the magnitude up from five on. -/
def parseDecimalLiteralToScaled (value : String) (scale : Int8) (precision : UInt8) : Result ℤ :=
  if scale.toInt < 0 then invalidCast s!"invalid decimal scale {scale.toInt}"
  else
    let digits := scale.toInt.toNat
    let value := trim value.toList
    if value.isEmpty then invalidCast "cannot cast empty string to DECIMAL"
    else
      let unreadable {α : Type} : Result α := invalidCast s!"cannot cast '{String.ofList value}' to DECIMAL"
      match decimalParts value with
      | none => unreadable
      | some (negative,whole,fractional) => do
        let factor ← okOr (decimalScaleI128 scale) (scaleOverflows scale)
        let whole ← okOr (parseSigned 128 whole) unreadable
        let raw ← okOr (checkedSigned 128 (whole * factor)) decimalCastOverflow
        let kept := fractional.take (min fractional.length digits)
        let keptValue ← (List.range (digits - kept.length)).foldlM (fun value _ =>
          okOr (checkedSigned 128 (value * 10)) decimalCastOverflow) ((parseSigned 128 kept).getD 0)
        let raw ← okOr (checkedSigned 128 (raw + keptValue)) decimalCastOverflow
        let raw ←
          if fractional[digits]?.any fun digit => '5' ≤ digit then
            okOr (checkedSigned 128 (raw + 1)) decimalCastOverflow
          else .ok raw
        validateDecimalPrecision (if negative then -raw else raw) precision

/-- `format_decimal128_value`; a scale is so small that no power of ten overflows. -/
def formatDecimal128Value (value : ℤ) (scale : Int8) : String :=
  if scale.toInt ≤ 0 then toString (value * 10 ^ scale.toInt.natAbs)
  else
    let divisor := 10 ^ scale.toInt.toNat
    (if value < 0 then "-" else "") ++ toString (|value| / divisor) ++ "." ++
      zeroPadded scale.toInt.toNat (|value| % divisor)

/-- The precision and the scale of a decimal type, `None` for another one. -/
def parseDecimalCastTarget (target : String) : Result (Option (UInt8 × Int8)) :=
  let target := trim target.toList
  let text := String.ofList target
  let args := (target.dropPrefix? "decimal".toList).or (target.dropPrefix? "numeric".toList)
  match args with
  | none => .ok none
  | some args =>
    let args := trim args
    if args.isEmpty then .ok (some (18,3))
    else if args.head? ≠ some '(' ∨ args.tail.getLast? ≠ some ')' then
      invalidCast s!"invalid DECIMAL target: {text}"
    else
      match (splitAll ',' args.tail.dropLast).map trim with
      | [precision,scale] => do
        let precision ← okOr (parseUnsigned 8 precision) (invalidCast s!"invalid DECIMAL precision: {text}")
        let scale ← okOr (parseSigned 8 scale) (invalidCast s!"invalid DECIMAL scale: {text}")
        if precision = 0 ∨ 38 < precision ∨ scale < 0 ∨ (precision : ℤ) < scale then
          invalidCast s!"invalid DECIMAL target: {text}"
        else return some (UInt8.ofNat precision,Int8.ofInt scale)
      | _ => invalidCast s!"invalid DECIMAL target: {text}"

end Texts
end Dodam.Sql

/-! ## Dates and timestamps as text

The texts that a day count and a count of milliseconds are read from, and the
texts that they are printed as.
-/
namespace Dodam.Sql
open Foundation Execution

section Dates

def parseDate32Days (value : String) : Result ℤ := do
  let date ← parseYmd value
  okOr (checkedSigned 32 (daysFromCivil date)) (unsupportedSql "DATE overflow")

/-- A date whose year does not fit into 32 bits is printed as its day count. -/
def formatDate32Days (days : ℤ) : String :=
  match civilFromDays days with
  | .ok date => dateText date
  | .error _ => toString days

end Dates

section Read
variable (value : String)

def invalidTimestamp {α : Type} : Result α := unsupportedSql s!"invalid TIMESTAMP literal: {value}"

/-- `&text[..n]`, which must not cut a character. -/
def sliceTo (n : ℕ) : List Char → Result (List Char)
  | [] => .ok []
  | c :: text =>
    if n = 0 then .ok []
    else if n < c.utf8Size then .error .panicked
    else (sliceTo (n - c.utf8Size) text).map (c :: ·)

def parseTimestampPart (part : Option (List Char)) (label : String) : Result ℤ := do
  let part ← okOr part (invalidTimestamp value)
  okOr (parseSigned 64 part) (unsupportedSql s!"invalid TIMESTAMP {label}: {value}")

def parseTimestampTimezoneOffset (sign : Char) (offset : List Char) : Result ℤ := do
  let (hours,minutes) := (splitOnce ':' offset).getD (offset,['0'])
  let hours ← okOr (parseSigned 64 hours) (invalidTimestamp value)
  let minutes ← okOr (parseSigned 64 minutes) (invalidTimestamp value)
  if ¬ (0 ≤ hours ∧ hours ≤ 23) ∨ ¬ (0 ≤ minutes ∧ minutes ≤ 59) then invalidTimestamp value
  else
    let millis := hours * 3600000 + minutes * 60000
    return if sign = '-' then -millis else millis

def isSign (c : Char) : Bool := c = '+' || c = '-'

/-- The time and the offset that begins at its last sign, which is not the first character. -/
def splitTimestampTimezone (time : List Char) : Result (List Char × ℤ) :=
  if time.getLast? = some 'Z' then .ok (time.dropLast,0)
  else
    match (List.range time.length).filter fun index => 0 < index && time[index]?.any isSign with
    | [] => .ok (time,0)
    | index :: indices => do
      let index := (index :: indices).getLast (List.cons_ne_nil _ _)
      let offset ← parseTimestampTimezoneOffset value (time.getD index '+') (time.drop (index + 1))
      return (time.take index,offset)

/-- The milliseconds of the digits behind the seconds. -/
def timestampFraction (millisText : List Char) : Result ℤ :=
  if millisText.isEmpty then .ok 0
  else do
    let millisText ← sliceTo 3 millisText
    let millis ← okOr (parseSigned 64 millisText) (invalidTimestamp value)
    return millis * 10 ^ (3 - millisText.length)

def parseTimestampMillisValue : Result ℤ := do
  let text := value.toList
  let (date,time) := ((splitOnce ' ' text).or (splitOnce 'T' text)).getD (text,"00:00:00".toList)
  let (time,offset) ← splitTimestampTimezone value time
  let days ← parseDate32Days (String.ofList date)
  let parts := splitAll ':' time
  let hour ← parseTimestampPart value parts.head? "hour"
  let minute ← parseTimestampPart value parts[1]? "minute"
  let secondRaw ← okOr parts[2]? (invalidTimestamp value)
  if 3 < parts.length then invalidTimestamp value
  else
    let (secondText,millisText) := (splitOnce '.' secondRaw).getD (secondRaw,[])
    let second ← okOr (parseSigned 64 secondText) (invalidTimestamp value)
    let millis ← timestampFraction value millisText
    if ¬ (0 ≤ hour ∧ hour < 24) ∨ ¬ (0 ≤ minute ∧ minute < 60) ∨ ¬ (0 ≤ second ∧ second < 60) then
      invalidTimestamp value
    else
      let base := days * 86400000 + (hour * 3600000 + minute * 60000 + second * 1000 + millis)
      okOr (checkedSigned 64 (base - offset)) (unsupportedSql "TIMESTAMP overflow")

end Read

section Print

def formatTimestampMillis (millis : ℤ) : String :=
  let days := millis / 86400000
  let millisOfDay := millis % 86400000
  match civilFromDays days with
  | .error _ => toString millis
  | .ok date =>
    let seconds := millisOfDay / 1000
    let text := dateText date ++ " " ++ zeroPadded 2 (seconds / 3600) ++ ":" ++
      zeroPadded 2 (seconds % 3600 / 60) ++ ":" ++ zeroPadded 2 (seconds % 60)
    if millisOfDay % 1000 = 0 then text else text ++ "." ++ zeroPadded 3 (millisOfDay % 1000)

end Print
end Dodam.Sql
