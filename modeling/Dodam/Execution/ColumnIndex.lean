import Dodam.Execution.Error
import Dodam.Foundation.Replace

/-! # Column names of a batch

A column is found by its name, with or without qualifiers; the columns of
aggregates are found by their function and its argument.
-/
namespace Dodam.Execution
open Foundation

def lastSegment (text : List Char) : List Char := (text.reverse.takeWhile (· ≠ '.')).reverse

def stripSuffix (suffix : Char) (text : List Char) : Option (List Char) :=
  if text.getLast? = some suffix then some text.dropLast else none

def physicalAggregateColumnParts (column : List Char) : Option (List Char × List Char) :=
  (splitOnce '(' column).bind fun (function,rest) =>
    (stripSuffix ')' rest).map fun argument => (function,argument)

def eqIgnoreAsciiCase (left right : List Char) : Bool := left.map Char.toLower = right.map Char.toLower

def sameSegments (left right : List Char) : Bool :=
  left = right || lastSegment left = right || lastSegment right = left

/-- `physical_same_column` to a depth; an argument is shorter than its column, so the length is deep
enough. -/
def physicalSameColumnTo : ℕ → List Char → List Char → Bool
  | 0, left, right => sameSegments left right
  | depth + 1, left, right =>
    match physicalAggregateColumnParts left, physicalAggregateColumnParts right with
    | some (leftFunction,leftArgument), some (rightFunction,rightArgument) =>
      (eqIgnoreAsciiCase leftFunction rightFunction && physicalSameColumnTo depth leftArgument rightArgument) ||
        sameSegments left right
    | _, _ => sameSegments left right

def physicalSameColumn (left right : String) : Bool :=
  physicalSameColumnTo left.toList.length left.toList right.toList

def columnIndex (names : List String) (column : String) : Result ℕ :=
  match names.findIdx? fun name => physicalSameColumn name column with
  | some index => .ok index
  | none =>
    match (splitOnce '.' column.toList).bind fun (_,unqualified) =>
        names.findIdx? fun name => name.toList = unqualified with
    | some index => .ok index
    | none => unknownColumn column

end Dodam.Execution
