import Dodam.Sql.LiteralValues

/-! # Columns of a batch by name

A reference that is resolved to the name of a column finds its column in a batch
by that name, by its last part, or by the argument of an aggregate; the vector
paths look for the name in any case instead.
-/
namespace Dodam.Sql
open Foundation Execution

theorem map_range_getElem? {α β : Type} (l : List (Option α)) (f : Option α → β) :
    (List.range l.length).map (fun row => f (l[row]?.join)) = l.map f := by
  refine List.ext_getElem (by rw [List.length_map,List.length_map,List.length_range]) fun row hleft hright => ?_
  rw [List.length_map] at hright
  rw [List.getElem_map,List.getElem_map,List.getElem_range,List.getElem?_eq_getElem hright]
  rfl

def ArrayRef.length : ArrayRef → ℕ
  | .boolean values => values.length
  | .int32 values | .date32 values => values.length
  | .int64 values | .date64 values | .timestampMillisecond _ values => values.length
  | .float64 values | .utf8 values => values.length
  | .decimal128 _ _ values => values.length
  | .uint32 values => values.length
  | .other _ nulls => nulls.length

def ArrayRef.nullCount (array : ArrayRef) : ℕ := (List.range array.length).countP array.isNull

def ArrayRef.dataType : ArrayRef → String
  | .boolean _ => "Boolean"
  | .int32 _ => "Int32"
  | .int64 _ => "Int64"
  | .float64 _ => "Float64"
  | .decimal128 precision scale _ => s!"Decimal128({precision.toNat}, {scale.toInt})"
  | .uint32 _ => "UInt32"
  | .date32 _ => "Date32"
  | .date64 _ => "Date64"
  | .utf8 _ => "Utf8"
  | .timestampMillisecond dataType _ | .other dataType _ => dataType

/-- A batch with the names of its columns. What is inside of structs and lists is read by name. -/
structure NamedBatch where
  numRows : ℕ
  columns : List (String × ArrayRef)
  structFieldArray : String → String → Result ArrayRef
  listLengths : String → Option String → Result (List (Option Int32))
  length_eq : ∀ column ∈ columns, column.2.length = numRows
  structField_length : ∀ column field array, structFieldArray column field = .ok array → array.length = numRows
  listLengths_length : ∀ column field lengths, listLengths column field = .ok lengths → lengths.length = numRows

section Names

/-- The function and the argument of the name of an aggregate. -/
def aggregateColumnParts (column : List Char) : Option (List Char × List Char) :=
  match splitOnce '(' column with
  | none => none
  | some (function,rest) => if rest.getLast? = some ')' then some (function,rest.dropLast) else none

def lastPart (column : List Char) : Option (List Char) := (splitAll '.' column).getLast?

/-- Names nest only as deep as they are long. -/
def sameJoinColumnFrom : ℕ → List Char → List Char → Bool
  | 0,left,right => left = right || lastPart left = some right || lastPart right = some left
  | fuel + 1,left,right =>
    (match aggregateColumnParts left,aggregateColumnParts right with
      | some (leftFunction,leftArgument),some (rightFunction,rightArgument) =>
        leftFunction.map Char.toLower = rightFunction.map Char.toLower &&
          sameJoinColumnFrom fuel leftArgument rightArgument
      | _,_ => false) ||
    (left = right || lastPart left = some right || lastPart right = some left)

def sameJoinColumn (left right : String) : Bool := sameJoinColumnFrom left.length left.toList right.toList

end Names

namespace NamedBatch
variable (batch : NamedBatch)

def names : List String := batch.columns.map Prod.fst

def columnIndex (column : String) : Result ℕ :=
  okOr (batch.names.findIdx? fun name => sameJoinColumn name column) (unknownColumn column)

/-- The only name that matches, an error where there are several. -/
def onlyMatch (column : String) (matched : String → Bool) : Result (Option String) :=
  match batch.names.filter matched with
  | [] => .ok none
  | [name] => .ok (some name)
  | _ => .error (.err (.ambiguousColumn column))

/-- `resolve_batch_bound`, to the name that is looked up in the batch. -/
def resolveColumn (column : String) : Result (Option String) :=
  let unqualified := (splitOnce '.' column.toList).map fun parts => String.ofList parts.2
  match (batch.columnIndex column).toOption,
      unqualified.filter fun name => (batch.columnIndex name).toOption.isSome with
  | some _,_ => .ok (some column)
  | none,some name => .ok (some name)
  | none,none => do
    let aggregate ←
      match aggregateColumnParts column.toList with
      | none => .ok none
      | some (function,argument) => batch.onlyMatch column fun name =>
        (function ++ ['(']).isPrefixOf name.toList && (['.'] ++ argument ++ [')']).isSuffixOf name.toList
    match aggregate with
    | some name => return some name
    | none => batch.onlyMatch column fun name => (['.'] ++ column.toList).isSuffixOf name.toList

def column (index : ℕ) : Result ArrayRef := okOr (batch.columns[index]?.map Prod.snd) (.error .panicked)

def outputColumnIndex (column : String) : Result ℕ := do
  match ← batch.resolveColumn column with
  | some name => batch.columnIndex name
  | none => unknownColumn column

def outputColumn (column : String) : Result ArrayRef := do
  let index ← batch.outputColumnIndex column
  batch.column index

/-- `batch_column`. -/
def columnIgnoringCase (name : String) : Result ArrayRef := do
  let index ← okOr (batch.names.findIdx? fun field => eqIgnoreAsciiCase field name) (unknownColumn name)
  batch.column index

end NamedBatch
end Dodam.Sql
