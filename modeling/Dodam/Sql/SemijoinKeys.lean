import Mathlib.Data.Finset.Sort
import Mathlib.Data.Int.ConditionallyCompleteOrder
import Dodam.Sql.SubqueryMaterialised

/-! # Keys of a semi-join

The values that an IN subquery gives are collected into a set of keys, of a form that the type
in the first batch chooses, and the outer column is looked up in the set.
-/
namespace Dodam.Sql
open Foundation Execution

/-- `sql_literal`: a text is quoted, and its quotes are doubled. -/
def sqlLiteral : LiteralValue → String
  | .null => "NULL"
  | .boolean value => toString value
  | .int64 value => toString value.toInt
  | .float64 display => display
  | .utf8 value =>
    let quote := Char.ofNat 39
    String.ofList ([quote] ++ value.toList.flatMap (fun c => if c = quote then [quote,quote] else [c]) ++ [quote])

def NamedBatch.keyArray (batch : NamedBatch) (keyColumn : String) : Result ArrayRef := do
  let index ← batch.columnIndex keyColumn
  batch.column index

inductive SemijoinKeySet
  | empty (hasNull : Bool)
  | int64 (values : Finset Int64) (hasNull : Bool)
  | utf8 (values : Finset String) (hasNull : Bool)
  | literal (values : Finset String) (hasNull : Bool)

def semijoinI64KeyAt (column : ArrayRef) (row : ℕ) : Result (Option Int64) :=
  if column.isNull row then .ok none
  else
    match column with
    | .int32 values | .date32 values => (cellValue values row).map fun value => some value.toInt64
    | .int64 values | .date64 values => (cellValue values row).map some
    | column => unsupportedSql s!"cannot use {column.dataType} as integer semijoin key"

section Keys
variable (floats : Floats)

def semijoinKeyAt (column : ArrayRef) (row : ℕ) : Result (Option String) :=
  if column.isNull row then .ok none
  else (literalValueFromArray floats column row).map fun value => some (sqlLiteral value)

namespace SemijoinKeySet

def forDataType : ArrayRef → SemijoinKeySet
  | .int32 _ | .int64 _ | .date32 _ | .date64 _ => .int64 ∅ false
  | .utf8 _ => .utf8 ∅ false
  | _ => .literal ∅ false

def rhsEmpty : SemijoinKeySet := .empty false

def hasNull : SemijoinKeySet → Bool
  | .empty hasNull | .int64 _ hasNull | .utf8 _ hasNull | .literal _ hasNull => hasNull

def noteNulls (keys : SemijoinKeySet) (nullCount : ℕ) : SemijoinKeySet :=
  if nullCount = 0 then keys
  else
    match keys with
    | .empty _ => .empty true
    | .int64 values _ => .int64 values true
    | .utf8 values _ => .utf8 values true
    | .literal values _ => .literal values true

def insertFromColumn (keys : SemijoinKeySet) (column : ArrayRef) (row : ℕ) : Result SemijoinKeySet :=
  if column.isNull row then .ok (keys.noteNulls 1)
  else
    match keys with
    | .empty hasNull => .ok (.empty hasNull)
    | .int64 values hasNull =>
      (semijoinI64KeyAt column row).map fun key => .int64 (values ∪ key.toFinset) hasNull
    | .utf8 values hasNull =>
      match column with
      | .utf8 strings => (cellValue strings row).map fun value => .utf8 (insert value values) hasNull
      | column => (semijoinKeyAt floats column row).map fun key => .utf8 (values ∪ key.toFinset) hasNull
    | .literal values hasNull =>
      (semijoinKeyAt floats column row).map fun key => .literal (values ∪ key.toFinset) hasNull

/-- The loops over integers and over texts take the valid values together. -/
def insertFromArray (keys : SemijoinKeySet) (column : ArrayRef) : Result SemijoinKeySet :=
  match keys.noteNulls column.nullCount,column with
  | .empty hasNull,_ => .ok (.empty hasNull)
  | .int64 values hasNull,.int32 array =>
    .ok (.int64 (values ∪ (array.filterMap fun value => value.map Int32.toInt64).toFinset) hasNull)
  | .int64 values hasNull,.int64 array => .ok (.int64 (values ∪ (array.filterMap fun value => value).toFinset) hasNull)
  | .utf8 values hasNull,.utf8 array => .ok (.utf8 (values ∪ (array.filterMap fun value => value).toFinset) hasNull)
  | keys,column => (List.range column.length).foldlM (fun keys row => keys.insertFromColumn floats column row) keys

def containsColumnValue (keys : SemijoinKeySet) (column : ArrayRef) (row : ℕ) : Result (Option Bool) :=
  if column.isNull row then .ok (some false)
  else
    match keys with
    | .empty _ => .ok (some false)
    | .int64 values _ => (semijoinI64KeyAt column row).map fun key => some (key.any (· ∈ values))
    | .utf8 values _ =>
      match column with
      | .utf8 strings => (cellValue strings row).map fun value => some (decide (value ∈ values))
      | column => (semijoinKeyAt floats column row).map fun key => some (key.any (· ∈ values))
    | .literal values _ => (semijoinKeyAt floats column row).map fun key => some (key.any (· ∈ values))

def membershipMask (keys : SemijoinKeySet) (column : ArrayRef) : Result Mask :=
  match keys,column with
  | .empty _,column => .ok (List.replicate column.length (some false))
  | .int64 values _,.int32 array => .ok (array.map fun value => value.map fun value => decide (value.toInt64 ∈ values))
  | .int64 values _,.int64 array => .ok (array.map fun value => value.map fun value => decide (value ∈ values))
  | .utf8 values _,.utf8 array => .ok (array.map fun value => value.map fun value => decide (value ∈ values))
  | keys,column => (List.range column.length).mapM (keys.containsColumnValue floats column)

def antiMembershipMask (keys : SemijoinKeySet) (column : ArrayRef) : Result Mask :=
  if keys.hasNull then .ok (List.replicate column.length (some false))
  else (keys.membershipMask floats column).map fun membership => membership.map (Option.map not)

/-- A list of the integers in order, where there are at most `maxValues`. -/
def toSmallInt64InListExpr (keys : SemijoinKeySet) (column : String) (negated : Bool) (maxValues : ℕ) : Option Expr :=
  match keys with
  | .empty hasNull => some (.inList column [] negated hasNull)
  | .int64 values hasNull =>
    if values.card ≤ maxValues then
      let values := ((values.image Int64.toInt).sort).map Int64.ofInt
      some (.inList column (values.map .int64) negated hasNull)
    else none
  | _ => none

end SemijoinKeySet

/-- The scan of the subquery gives the batches. -/
def collectSemijoinKeySet (batches : List NamedBatch) (keyColumn : String) : Result SemijoinKeySet :=
  match batches.head? with
  | none => .ok SemijoinKeySet.rhsEmpty
  | some firstBatch => do
    let column ← firstBatch.keyArray keyColumn
    batches.foldlM (fun keys batch => do
      let column ← batch.keyArray keyColumn
      keys.insertFromArray floats column) (SemijoinKeySet.forDataType column)

def semijoinMembershipMask (batch : NamedBatch) (keyColumn : String) (keys : SemijoinKeySet) : Result Mask := do
  let column ← batch.keyArray keyColumn
  keys.membershipMask floats column

def semijoinAntiMembershipMask (batch : NamedBatch) (keyColumn : String) (keys : SemijoinKeySet) : Result Mask := do
  let column ← batch.keyArray keyColumn
  keys.antiMembershipMask floats column

def semijoinMask (batch : NamedBatch) (keyColumn : String) (keys : SemijoinKeySet) (negated : Bool) : Result Mask :=
  if negated then semijoinAntiMembershipMask floats batch keyColumn keys
  else semijoinMembershipMask floats batch keyColumn keys

end Keys
end Dodam.Sql

/-! ## What semi-join keys decide

An outer value is in an IN subquery when it equals one of the subquery's values,
and the answer is NULL where a NULL stands in the way. A key set answers by keys:
the answers are compared row by row, and with those of the list of a small set.
-/
namespace Dodam.Sql
open Foundation Execution

section Values
variable (floats : Floats)

def ArrayRef.cells (column : ArrayRef) : List Cell := (List.range column.length).map column.cell

def Cell.number : Cell → Option ℚ
  | .integer value => some value.toInt
  | .decimal value scale => some (value / 10 ^ scale.toInt)
  | _ => none

def Cell.seconds : Cell → Option ℚ
  | .date days => some (days.toInt * 86400)
  | .dateTime millis => some (millis.toInt / 1000)
  | _ => none

def Cell.asDouble : Cell → Option String
  | .integer value => some (floats.ofInt value)
  | .decimal value scale => some (floats.ofDecimal value scale)
  | .double display => some display
  | _ => none

/-- Numbers are equal as numbers, a number and a double as doubles, dates and times as instants. -/
def Cell.sameValue (x y : Cell) : Bool :=
  match x,y with
  | .text a,.text b => a = b
  | .boolean a,.boolean b => a = b
  | x,y =>
    match x.number,y.number,x.seconds,y.seconds,x.asDouble floats,y.asDouble floats with
    | some a,some b,_,_,_,_ => a = b
    | _,_,some a,some b,_,_ => a = b
    | _,_,_,_,some a,some b => floats.partialCmp a b = some .eq
    | _,_,_,_,_,_ => false

/-- Equality in SQL: a NULL equals nothing and differs from nothing. -/
def Cell.equals (x y : Cell) : Option Bool := if x = .null ∨ y = .null then none else some (x.sameValue floats y)

/-- The truth value of `x [NOT] IN (cells)`. -/
def inSubquery (negated : Bool) (cells : List Cell) (x : Cell) : Option Bool :=
  negateIf negated (cells.foldl (fun found y => orKleene found (x.equals floats y)) (some false))

def SharesValue (cells : List Cell) (x : Cell) : Prop := ∃ y ∈ cells, y ≠ .null ∧ x.sameValue floats y = true

variable {floats} {cells : List Cell} {x : Cell}

theorem inSubquery_of_nonnull (hx : x ≠ .null) : inSubquery floats false cells x = some true ↔ SharesValue floats cells x := by
  unfold inSubquery negateIf SharesValue
  rw [if_neg Bool.false_ne_true,foldl_orKleene_eq_true]
  refine (or_iff_right (by simp)).trans (exists_congr fun y => and_congr_right fun _ => ?_)
  simp [Cell.equals,hx]

theorem inSubquery_null : inSubquery floats false cells .null ≠ some true := by
  unfold inSubquery negateIf
  rw [if_neg Bool.false_ne_true,ne_eq,foldl_orKleene_eq_true]
  simp [Cell.equals]

theorem notInSubquery_iff : inSubquery floats true cells x = some true ↔ ∀ y ∈ cells, x.equals floats y = some false := by
  unfold inSubquery negateIf
  rw [if_pos rfl]
  have hnot : ∀ value : Option Bool, value.map not = some true ↔ value = some false := by
    rintro (_ | _ | _) <;> decide
  rw [hnot,foldl_orKleene_eq_false]
  exact and_iff_right rfl

theorem notInSubquery_of_nonnull (hx : x ≠ .null) (hcells : .null ∉ cells) :
    inSubquery floats true cells x = some true ↔ ¬ SharesValue floats cells x := by
  rw [notInSubquery_iff]
  unfold SharesValue
  push Not
  refine forall₂_congr fun y hy => ?_
  have hy' : y ≠ .null := fun h => hcells (h ▸ hy)
  simp [Cell.equals,hx,hy']

theorem notInSubquery_null : inSubquery floats true cells .null = some true ↔ cells = [] := by
  rw [notInSubquery_iff]
  simp [Cell.equals,List.eq_nil_iff_forall_not_mem]

theorem notInSubquery_with_null (hcells : .null ∈ cells) : inSubquery floats true cells x ≠ some true := by
  rw [ne_eq,notInSubquery_iff]
  intro hall
  have hnull := hall _ hcells
  simp [Cell.equals] at hnull

end Values

section Keys
variable (floats : Floats)

inductive SemijoinKey
  | integer (value : Int64)
  | text (value : String)

inductive KeyForm
  | int64
  | utf8
  | literal
deriving DecidableEq

def ArrayRef.keyForm : ArrayRef → KeyForm
  | .int32 _ | .int64 _ | .date32 _ | .date64 _ => .int64
  | .utf8 _ => .utf8
  | _ => .literal

def Cell.integerKey : Cell → Option Int64
  | .integer value => some value
  | .date days => some days.toInt64
  | .dateTime millis => some millis
  | _ => none

def Cell.literalKey (x : Cell) : Option String :=
  if x = .null then none else (x.literal floats).toOption.map sqlLiteral

def KeyForm.key (form : KeyForm) (x : Cell) : Option SemijoinKey :=
  match form,x with
  | .int64,x => x.integerKey.map .integer
  | .utf8,.text value => some (.text value)
  | _,x => (x.literalKey floats).map .text

/-- A column is looked up in one loop, where NULL stays NULL. -/
def KeyForm.ReadsInLoop : KeyForm → ArrayRef → Prop
  | .int64,.int32 _ | .int64,.int64 _ | .utf8,.utf8 _ => True
  | _,_ => False

namespace SemijoinKeySet

def form : SemijoinKeySet → Option KeyForm
  | .empty _ => none
  | .int64 _ _ => some .int64
  | .utf8 _ _ => some .utf8
  | .literal _ _ => some .literal

def Mem (keys : SemijoinKeySet) : SemijoinKey → Prop
  | .integer value => ∃ values hasNull, keys = .int64 values hasNull ∧ value ∈ values
  | .text value => ∃ values hasNull, (keys = .utf8 values hasNull ∨ keys = .literal values hasNull) ∧ value ∈ values

structure Takes (keys : SemijoinKeySet) (form : KeyForm) (cells : List Cell) (taken : SemijoinKeySet) : Prop where
  form_eq : taken.form = some form
  mem_iff : ∀ key, taken.Mem key ↔ keys.Mem key ∨ ∃ x ∈ cells, form.key floats x = some key
  null_iff : taken.hasNull = true ↔ keys.hasNull = true ∨ .null ∈ cells
  read : ∀ x ∈ cells, x ≠ .null → (form.key floats x).isSome

end SemijoinKeySet
end Keys

open KeyForm

open SemijoinKeySet

section Take
variable {floats : Floats} {form : KeyForm} {keys taken next : SemijoinKeySet} {cells more : List Cell}
variable {hasNull : Bool} {key : SemijoinKey}

@[simp] theorem mem_int64 {values : Finset Int64} :
    (int64 values hasNull).Mem key ↔ ∃ value ∈ values, key = .integer value := by
  cases key <;> simp [SemijoinKeySet.Mem]

@[simp] theorem mem_utf8 {values : Finset String} :
    (utf8 values hasNull).Mem key ↔ ∃ value ∈ values, key = .text value := by
  cases key <;> simp [SemijoinKeySet.Mem]

@[simp] theorem mem_literal {values : Finset String} :
    (literal values hasNull).Mem key ↔ ∃ value ∈ values, key = .text value := by
  cases key <;> simp [SemijoinKeySet.Mem]

@[simp] theorem KeyForm.key_null : form.key floats .null = none := by cases form <;> simp [key,Cell.integerKey,Cell.literalKey]

theorem takes_nil (h : keys.form = some form) : keys.Takes floats form [] keys := ⟨h,by simp,by simp,by simp⟩

theorem SemijoinKeySet.Takes.trans (h : keys.Takes floats form cells taken) (h' : taken.Takes floats form more next) :
    keys.Takes floats form (cells ++ more) next where
  form_eq := h'.form_eq
  mem_iff key := by
    rw [h'.mem_iff,h.mem_iff,or_assoc]
    simp only [List.mem_append,or_and_right,exists_or]
  null_iff := by rw [h'.null_iff,h.null_iff,or_assoc,List.mem_append]
  read x hx := (List.mem_append.mp hx).elim (h.read x) (h'.read x)

theorem SemijoinKeySet.Takes.congr (h : keys.Takes floats form cells taken) (hmem : ∀ x, x ∈ cells ↔ x ∈ more) :
    keys.Takes floats form more taken where
  form_eq := h.form_eq
  mem_iff key := by
    rw [h.mem_iff]
    simp only [hmem]
  null_iff := by rw [h.null_iff,hmem]
  read x hx := h.read x ((hmem x).mpr hx)

theorem takes_noteNulls (h : keys.form = some form) {count : ℕ} (hcount : count ≠ 0) :
    keys.Takes floats form [.null] (keys.noteNulls count) := by
  cases keys <;> simp_all [SemijoinKeySet.noteNulls,SemijoinKeySet.form] <;>
    constructor <;> simp_all [SemijoinKeySet.form,SemijoinKeySet.hasNull]

variable {column : ArrayRef} {row : ℕ}

theorem isNull_iff (hrow : row < column.length) : column.isNull row = true ↔ column.cell row = .null := by
  have hvalue : ∀ {α : Type} {values : List α}, row < values.length → ∃ value, values[row]? = some value :=
    fun h => ⟨_,List.getElem?_eq_getElem h⟩
  cases column with
  | other dataType nulls => simp [ArrayRef.isNull,ArrayRef.cell]
  | boolean values | int32 values | int64 values | float64 values | decimal128 precision scale values
  | uint32 values | date32 values | date64 values | timestampMillisecond dataType values | utf8 values =>
    obtain ⟨value,hvalue⟩ := hvalue hrow
    cases value <;> simp [ArrayRef.isNull,ArrayRef.cell,hvalue]

theorem semijoinI64KeyAt_eq {key : Option Int64} (hrow : row < column.length)
    (h : semijoinI64KeyAt column row = .ok key) :
    key = (column.cell row).integerKey ∧ (column.cell row ≠ .null → key.isSome) := by
  unfold semijoinI64KeyAt at h
  by_cases hnull : column.isNull row = true
  · rw [if_pos hnull] at h
    cases h
    rw [(isNull_iff hrow).mp hnull]
    exact ⟨rfl,fun hx => absurd rfl hx⟩
  · rw [if_neg hnull] at h
    cases column with
    | int32 values | int64 values | date32 values | date64 values =>
      obtain ⟨value,hvalue,rfl⟩ := map_eq_ok_iff.mp h
      have hvalue := (okOr_eq_ok (by simp)).mp hvalue
      simp [ArrayRef.cell,hvalue,Cell.integerKey]
    | boolean | float64 | decimal128 | uint32 | timestampMillisecond | utf8 | other => cases h

theorem semijoinKeyAt_eq {key : Option String} (hrow : row < column.length)
    (h : semijoinKeyAt floats column row = .ok key) :
    key = (column.cell row).literalKey floats ∧ (column.cell row ≠ .null → key.isSome) := by
  unfold semijoinKeyAt at h
  unfold Cell.literalKey
  by_cases hnull : column.isNull row = true
  · rw [if_pos hnull] at h
    cases h
    have hx := (isNull_iff hrow).mp hnull
    rw [if_pos hx]
    exact ⟨rfl,fun hx' => absurd hx hx'⟩
  · rw [if_neg hnull] at h
    obtain ⟨value,hvalue,rfl⟩ := map_eq_ok_iff.mp h
    have hliteral := (literalValueFromArray_iff hrow).mp ((if_neg hnull).trans hvalue)
    rw [if_neg (mt (isNull_iff hrow).mpr hnull),hliteral]
    exact ⟨rfl,fun _ => rfl⟩

theorem key_utf8 {x : Cell} (hx : ∀ value, x ≠ .text value) :
    utf8.key floats x = (x.literalKey floats).map .text := by
  cases x with
  | text value => exact absurd rfl (hx value)
  | null | boolean | integer | decimal | double | date | dateTime | unread => rfl

theorem cell_text {value : String} (h : column.cell row = .text value) : ∃ values, column = .utf8 values := by
  cases column with
  | utf8 values => exact ⟨values,rfl⟩
  | boolean values | int32 values | int64 values | float64 values | decimal128 precision scale values
  | uint32 values | date32 values | date64 values | timestampMillisecond dataType values =>
    cases hvalue : (values[row]?).join <;> simp [ArrayRef.cell,hvalue] at h
  | other dataType nulls =>
    unfold ArrayRef.cell at h
    by_cases hnull : nulls[row]? = some true <;> simp [hnull] at h

theorem utf8_key {β : Type} {ofText : String → β} {ofKey : Option String → β} {result : β}
    (hsame : ∀ value, ofText value = ofKey (some value)) (hrow : row < column.length)
    (h : (match column with
      | .utf8 strings => (cellValue strings row).map ofText
      | column => (semijoinKeyAt floats column row).map ofKey) = .ok result) :
    ∃ key, result = ofKey key ∧ utf8.key floats (column.cell row) = key.map .text ∧
      (column.cell row ≠ .null → key.isSome) := by
  by_cases htext : ∃ values, column = .utf8 values
  · obtain ⟨strings,rfl⟩ := htext
    obtain ⟨value,hvalue,rfl⟩ := map_eq_ok_iff.mp h
    have hvalue := (okOr_eq_ok (by simp)).mp hvalue
    exact ⟨some value,hsame value,by simp [ArrayRef.cell,hvalue,key],fun _ => rfl⟩
  · have hread : (semijoinKeyAt floats column row).map ofKey = .ok result := by
      cases column with
      | utf8 strings => exact absurd ⟨strings,rfl⟩ htext
      | boolean | int32 | int64 | float64 | decimal128 | uint32 | date32 | date64 | timestampMillisecond | other =>
        exact h
    obtain ⟨key,hkey,rfl⟩ := map_eq_ok_iff.mp hread
    obtain ⟨rfl,hsome⟩ := semijoinKeyAt_eq hrow hkey
    exact ⟨_,rfl,key_utf8 fun value hvalue => htext (cell_text hvalue),hsome⟩

theorem takes_key {x : Cell} (hkeys : keys.form = some form) (hform : taken.form = keys.form)
    (hnull : taken.hasNull = keys.hasNull) (hx : x ≠ .null) (hread : (form.key floats x).isSome)
    (hmem : ∀ key, taken.Mem key ↔ keys.Mem key ∨ form.key floats x = some key) :
    keys.Takes floats form [x] taken where
  form_eq := hform.trans hkeys
  mem_iff key := by simpa using hmem key
  null_iff := by simp [hnull,hx.symm]
  read y hy _ := by rwa [List.mem_singleton.mp hy]

theorem insertFromColumn_takes (hkeys : keys.form = some form) (hrow : row < column.length)
    (h : keys.insertFromColumn floats column row = .ok taken) : keys.Takes floats form [column.cell row] taken := by
  unfold insertFromColumn at h
  by_cases hnull : column.isNull row = true
  · rw [if_pos hnull] at h
    cases h
    rw [(isNull_iff hrow).mp hnull]
    exact takes_noteNulls hkeys one_ne_zero
  · rw [if_neg hnull] at h
    have hx : column.cell row ≠ .null := mt (isNull_iff hrow).mpr hnull
    cases keys with
    | empty hasNull => exact absurd hkeys (by simp [SemijoinKeySet.form])
    | int64 values hasNull =>
      obtain ⟨key,hkey,rfl⟩ := map_eq_ok_iff.mp h
      cases hkeys
      obtain ⟨rfl,hsome⟩ := semijoinI64KeyAt_eq hrow hkey
      refine takes_key rfl rfl rfl hx (by simpa [key] using hsome hx) fun k => ?_
      simp [key,or_and_right,exists_or,eq_comm]
    | utf8 values hasNull =>
      cases hkeys
      obtain ⟨key,rfl,hkey,hsome⟩ := utf8_key (fun value => by simp) hrow h
      refine takes_key rfl rfl rfl hx (by simpa [hkey] using hsome hx) fun k => ?_
      rw [hkey]
      simp [or_and_right,exists_or,eq_comm]
    | literal values hasNull =>
      obtain ⟨key,hkey,rfl⟩ := map_eq_ok_iff.mp h
      cases hkeys
      obtain ⟨rfl,hsome⟩ := semijoinKeyAt_eq hrow hkey
      refine takes_key rfl rfl rfl hx (by simpa [key] using hsome hx) fun k => ?_
      simp [key,or_and_right,exists_or,eq_comm]

theorem foldlM_takes {rows : List ℕ} (hrows : ∀ row ∈ rows, row < column.length) (hkeys : keys.form = some form)
    (h : rows.foldlM (fun keys row => keys.insertFromColumn floats column row) keys = .ok taken) :
    keys.Takes floats form (rows.map column.cell) taken := by
  induction rows generalizing keys with
  | nil =>
    cases h
    exact takes_nil hkeys
  | cons row rows ih =>
    rw [List.foldlM_cons] at h
    obtain ⟨middle,hmiddle,h⟩ := bind_eq_ok_iff.mp h
    rw [List.forall_mem_cons] at hrows
    have hfirst := insertFromColumn_takes hkeys hrows.1 hmiddle
    exact hfirst.trans (ih hrows.2 hfirst.form_eq h)

theorem mem_cells {x : Cell} : x ∈ column.cells ↔ ∃ row < column.length, column.cell row = x := by
  simp [ArrayRef.cells]

theorem nullCount_ne_zero : column.nullCount ≠ 0 ↔ .null ∈ column.cells := by
  unfold ArrayRef.nullCount
  rw [ne_eq,← Nat.pos_iff_ne_zero.not_left,not_not,List.countP_pos_iff,mem_cells]
  constructor
  · rintro ⟨row,hrow,hnull⟩
    have hrow := List.mem_range.mp hrow
    exact ⟨row,hrow,(isNull_iff hrow).mp hnull⟩
  · rintro ⟨row,hrow,hnull⟩
    exact ⟨row,List.mem_range.mpr hrow,(isNull_iff hrow).mpr hnull⟩

theorem takes_loop (hkeys : keys.form = some form) (hform : taken.form = (keys.noteNulls column.nullCount).form)
    (hnull : taken.hasNull = (keys.noteNulls column.nullCount).hasNull)
    (hmem : ∀ key, taken.Mem key ↔
      (keys.noteNulls column.nullCount).Mem key ∨ ∃ x ∈ column.cells, form.key floats x = some key)
    (hread : ∀ x ∈ column.cells, x ≠ .null → (form.key floats x).isSome) :
    keys.Takes floats form column.cells taken := by
  by_cases hcount : column.nullCount = 0
  · rw [hcount] at hform hnull hmem
    have hcells : .null ∉ column.cells := mt nullCount_ne_zero.mpr (not_not.mpr hcount)
    exact ⟨hform.trans hkeys,hmem,by rw [hnull]; simp [hcells,noteNulls],hread⟩
  · have hfirst : keys.Takes floats form [.null] (keys.noteNulls column.nullCount) := takes_noteNulls hkeys hcount
    have hcells : .null ∈ column.cells := nullCount_ne_zero.mp hcount
    refine ⟨hform.trans hfirst.form_eq,fun key => ?_,?_,hread⟩
    · rw [hmem,hfirst.mem_iff]
      simp
    · rw [hnull,hfirst.null_iff]
      simp [hcells]

theorem takes_rows (hkeys : keys.form = some form)
    (h : (List.range column.length).foldlM (fun keys row => keys.insertFromColumn floats column row)
      (keys.noteNulls column.nullCount) = .ok taken) : keys.Takes floats form column.cells taken := by
  have hrows : ∀ row ∈ List.range column.length, row < column.length := fun row => List.mem_range.mp
  by_cases hcount : column.nullCount = 0
  · rw [hcount] at h
    exact foldlM_takes hrows hkeys h
  · have hfirst : keys.Takes floats form [.null] (keys.noteNulls column.nullCount) := takes_noteNulls hkeys hcount
    have hcells : .null ∈ column.cells := nullCount_ne_zero.mp hcount
    refine (hfirst.trans (foldlM_takes hrows hfirst.form_eq h)).congr fun x => ?_
    rw [List.mem_append,List.mem_singleton]
    exact or_iff_right_of_imp fun hx => hx ▸ hcells

theorem cells_of_values {α : Type} {values : List (Option α)} (cell : α → Cell) (hlength : column.length = values.length)
    (hcell : ∀ row, column.cell row = (values[row]?).join.elim .null cell) :
    column.cells = values.map fun value => value.elim .null cell := by
  have hcells := map_range_getElem? values fun value => value.elim .null cell
  rw [← hcells,← hlength]
  exact List.map_congr_left fun row _ => hcell row

theorem takes_values {α : Type} {values : List (Option α)} (cell : α → Cell) (hkeys : keys.form = some form)
    (hform : taken.form = (keys.noteNulls column.nullCount).form)
    (hnull : taken.hasNull = (keys.noteNulls column.nullCount).hasNull)
    (hcells : column.cells = values.map fun value => value.elim .null cell)
    (hmem : ∀ key, taken.Mem key ↔ (keys.noteNulls column.nullCount).Mem key ∨
      ∃ value, some value ∈ values ∧ form.key floats (cell value) = some key)
    (hread : ∀ value, (form.key floats (cell value)).isSome) :
    keys.Takes floats form column.cells taken := by
  refine takes_loop hkeys hform hnull (fun key => (hmem key).trans (or_congr_right ?_)) ?_
  · simp only [hcells,List.mem_map]
    constructor
    · rintro ⟨value,hvalue,hkey⟩
      exact ⟨_,⟨some value,hvalue,rfl⟩,hkey⟩
    · rintro ⟨_,⟨_ | value,hvalue,rfl⟩,hkey⟩
      · exact absurd hkey (by simp)
      · exact ⟨value,hvalue,hkey⟩
  · intro x hx hnull
    rw [hcells] at hx
    obtain ⟨_ | value,-,rfl⟩ := List.mem_map.mp hx
    · exact absurd rfl hnull
    · exact hread value

theorem insertFromArray_takes (hkeys : keys.form = some form) (h : keys.insertFromArray floats column = .ok taken) :
    keys.Takes floats form column.cells taken := by
  have hform : (keys.noteNulls column.nullCount).form = some form := by
    rw [← hkeys]
    unfold noteNulls
    split_ifs
    · rfl
    · cases keys <;> rfl
  unfold insertFromArray at h
  cases hfirst : keys.noteNulls column.nullCount with
  | empty hasNull =>
    rw [hfirst] at hform
    cases hform
  | int64 values hasNull =>
    cases column with
    | int32 array =>
      rw [hfirst] at h hform
      cases h
      cases hform
      refine takes_values (fun value => .integer value.toInt64) hkeys (by rw [hfirst]; rfl) (by rw [hfirst]; rfl)
        (cells_of_values _ rfl fun _ => rfl) (fun key => ?_) (fun _ => rfl)
      rw [hfirst]
      simp [KeyForm.key,Cell.integerKey,or_and_right,exists_or,eq_comm]
    | int64 array =>
      rw [hfirst] at h hform
      cases h
      cases hform
      refine takes_values .integer hkeys (by rw [hfirst]; rfl) (by rw [hfirst]; rfl)
        (cells_of_values _ rfl fun _ => rfl) (fun key => ?_) (fun _ => rfl)
      rw [hfirst]
      simp [KeyForm.key,Cell.integerKey,or_and_right,exists_or,eq_comm]
    | date32 | date64 | utf8 | boolean | float64 | decimal128 | uint32 | timestampMillisecond | other =>
      refine takes_rows hkeys ?_
      rw [hfirst] at h ⊢
      exact h
  | utf8 values hasNull =>
    cases column with
    | utf8 array =>
      rw [hfirst] at h hform
      cases h
      cases hform
      refine takes_values .text hkeys (by rw [hfirst]; rfl) (by rw [hfirst]; rfl)
        (cells_of_values _ rfl fun _ => rfl) (fun key => ?_) (fun _ => rfl)
      rw [hfirst]
      simp [KeyForm.key,or_and_right,exists_or,eq_comm]
    | int32 | int64 | date32 | date64 | boolean | float64 | decimal128 | uint32 | timestampMillisecond | other =>
      refine takes_rows hkeys ?_
      rw [hfirst] at h ⊢
      exact h
  | literal values hasNull =>
    refine takes_rows hkeys ?_
    rw [hfirst] at h ⊢
    exact h

theorem foldlM_batches {batches : List NamedBatch} {keyColumn : String} {arrays : List ArrayRef}
    (harrays : List.Forall₂ (fun batch array => batch.keyArray keyColumn = .ok array) batches arrays)
    (hkeys : keys.form = some form)
    (h : batches.foldlM (fun keys batch => do
      let column ← batch.keyArray keyColumn
      keys.insertFromArray floats column) keys = .ok taken) :
    keys.Takes floats form (arrays.flatMap ArrayRef.cells) taken := by
  induction harrays generalizing keys with
  | nil =>
    cases h
    exact takes_nil hkeys
  | cons harray _ ih =>
    rw [List.foldlM_cons,harray] at h
    obtain ⟨middle,hmiddle,h⟩ := bind_eq_ok_iff.mp h
    have hfirst := insertFromArray_takes hkeys hmiddle
    exact hfirst.trans (ih hfirst.form_eq h)

theorem collectSemijoinKeySet_takes {batches : List NamedBatch} {keyColumn : String} {first : ArrayRef}
    {arrays : List ArrayRef} (harrays : batches.mapM (fun batch => batch.keyArray keyColumn) = .ok (first :: arrays))
    (h : collectSemijoinKeySet floats batches keyColumn = .ok keys) :
    (forDataType first).Takes floats first.keyForm ((first :: arrays).flatMap ArrayRef.cells) keys := by
  have harrays := mapM_ok_iff.mp harrays
  have hform : (forDataType first).form = some first.keyForm := by cases first <;> rfl
  cases harrays with
  | cons harray hrest =>
    unfold collectSemijoinKeySet at h
    dsimp only [List.head?_cons] at h
    rw [harray] at h
    exact foldlM_batches (.cons harray hrest) hform h

theorem collectSemijoinKeySet_empty {batches : List NamedBatch} {keyColumn : String}
    (harrays : batches.mapM (fun batch => batch.keyArray keyColumn) = .ok [])
    (h : collectSemijoinKeySet floats batches keyColumn = .ok keys) : keys = .empty false := by
  cases mapM_ok_iff.mp harrays
  cases h
  rfl

end Take

section Masks
variable {floats : Floats} {form : KeyForm} {keys : SemijoinKeySet} {column : ArrayRef} {row : ℕ} {mask : Mask}

def SemijoinKeySet.Has (floats : Floats) (keys : SemijoinKeySet) (form : KeyForm) (x : Cell) : Prop :=
  ∃ key, form.key floats x = some key ∧ keys.Mem key

theorem containsColumnValue_eq {value : Option Bool} (hkeys : keys.form = some form) (hrow : row < column.length)
    (h : keys.containsColumnValue floats column row = .ok value) :
    value ≠ none ∧ (value = some true ↔ keys.Has floats form (column.cell row)) ∧
      (column.cell row ≠ .null → (form.key floats (column.cell row)).isSome) := by
  unfold containsColumnValue at h
  unfold SemijoinKeySet.Has
  by_cases hnull : column.isNull row = true
  · rw [if_pos hnull] at h
    cases h
    rw [(isNull_iff hrow).mp hnull]
    simp
  · rw [if_neg hnull] at h
    cases keys with
    | empty hasNull => cases hkeys
    | int64 values hasNull =>
      obtain ⟨key,hkey,rfl⟩ := map_eq_ok_iff.mp h
      cases hkeys
      obtain ⟨rfl,hsome⟩ := semijoinI64KeyAt_eq hrow hkey
      simpa [key,Option.any_eq_true] using hsome
    | utf8 values hasNull =>
      cases hkeys
      obtain ⟨key,rfl,hkey,hsome⟩ := utf8_key (fun value => by simp) hrow h
      rw [hkey]
      simpa [Option.any_eq_true] using hsome
    | literal values hasNull =>
      obtain ⟨key,hkey,rfl⟩ := map_eq_ok_iff.mp h
      cases hkeys
      obtain ⟨rfl,hsome⟩ := semijoinKeyAt_eq hrow hkey
      simpa [key,Option.any_eq_true] using hsome

/-- What the mask says of a row: TRUE where the set has the key, and NULL for a NULL that is read in a loop. -/
structure RowAnswer (floats : Floats) (form : KeyForm) (keys : SemijoinKeySet) (column : ArrayRef) (row : ℕ)
    (answer : Option Bool) : Prop where
  true_iff : answer = some true ↔ keys.Has floats form (column.cell row)
  none_iff : answer = none ↔ column.cell row = .null ∧ form.ReadsInLoop column
  read : column.cell row ≠ .null → (form.key floats (column.cell row)).isSome

theorem rowAnswer_loop {α : Type} {values : List (Option α)} {cell : α → Cell} {found : α → Bool}
    (hloop : form.ReadsInLoop column) (hcell : column.cell row = (values[row]?).join.elim .null cell)
    (hrow : row < values.length) (hvalid : ∀ value, cell value ≠ .null)
    (hfound : ∀ value, found value = true ↔ keys.Has floats form (cell value))
    (hread : ∀ value, (form.key floats (cell value)).isSome) :
    ∃ answer, (values.map fun value => value.map found)[row]? = some answer ∧ RowAnswer floats form keys column row answer := by
  have hvalue := List.getElem?_eq_getElem hrow
  rw [List.getElem?_map,hvalue]
  rw [hvalue] at hcell
  cases hread' : values[row] with
  | none =>
    rw [hread'] at hcell
    refine ⟨none,rfl,?_,?_,?_⟩ <;> rw [hcell]
    · simp [SemijoinKeySet.Has]
    · simp [hloop]
    · exact fun hx => absurd rfl hx
  | some value =>
    rw [hread'] at hcell
    refine ⟨some (found value),rfl,?_,?_,?_⟩ <;> rw [hcell]
    · simpa using hfound value
    · simpa using fun h => absurd h (hvalid value)
    · exact fun _ => hread value

theorem rowAnswer_rows (hkeys : keys.form = some form) (hloop : ¬ form.ReadsInLoop column) (hrow : row < column.length)
    (h : (List.range column.length).mapM (keys.containsColumnValue floats column) = .ok mask) :
    ∃ answer, mask[row]? = some answer ∧ RowAnswer floats form keys column row answer := by
  have hmask := mapM_ok_iff.mp h
  have hlength : mask.length = column.length := by rw [← hmask.length_eq,List.length_range]
  refine ⟨mask[row],List.getElem?_eq_getElem (hlength ▸ hrow),?_⟩
  have hanswer := hmask.get (by simpa using hrow) (hlength ▸ hrow)
  simp only [List.get_eq_getElem,List.getElem_range] at hanswer
  obtain ⟨hsome,htrue,hread⟩ := containsColumnValue_eq hkeys hrow hanswer
  exact ⟨htrue,by simp [hsome,hloop],hread⟩

theorem membershipMask_rows (hkeys : keys.form = some form) (hrow : row < column.length)
    (h : keys.membershipMask floats column = .ok mask) :
    ∃ answer, mask[row]? = some answer ∧ RowAnswer floats form keys column row answer := by
  cases keys with
  | empty hasNull => cases hkeys
  | int64 values hasNull =>
    cases hkeys
    cases column with
    | int32 array | int64 array =>
      cases h
      exact rowAnswer_loop trivial rfl hrow (by simp) (by simp [SemijoinKeySet.Has,key,Cell.integerKey])
        fun _ => rfl
    | date32 | date64 | utf8 | boolean | float64 | decimal128 | uint32 | timestampMillisecond | other =>
      exact rowAnswer_rows rfl not_false hrow h
  | utf8 values hasNull =>
    cases hkeys
    cases column with
    | utf8 array =>
      cases h
      exact rowAnswer_loop trivial rfl hrow (by simp) (by simp [SemijoinKeySet.Has,key]) fun _ => rfl
    | int32 | int64 | date32 | date64 | boolean | float64 | decimal128 | uint32 | timestampMillisecond | other =>
      exact rowAnswer_rows rfl not_false hrow h
  | literal values hasNull =>
    cases hkeys
    exact rowAnswer_rows rfl (by cases column <;> exact not_false) hrow h

end Masks
end Dodam.Sql
