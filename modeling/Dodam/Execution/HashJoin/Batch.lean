import Dodam.Execution.Error
import Dodam.Foundation.Join

/-! # Record batches as a join sees them

A row is the cells of its key columns together with everything else it carries.
-/
namespace Dodam.Execution
open Foundation

/-- Arrow column types. Only three of them have join layouts of their own. -/
inductive DataType
  | int32
  | int64
  | utf8
  | other (name : String)
deriving DecidableEq, Repr

/-- How `{:?}` prints a column type. -/
def DataType.debug : DataType → String
  | .int32 => "Int32"
  | .int64 => "Int64"
  | .utf8 => "Utf8"
  | .other name => name

/-- A value of a key column; types without a layout of their own are kept encoded. -/
inductive KeyValue
  | int32 (value : Int32)
  | int64 (value : Int64)
  | utf8 (value : String)
  | other (name : String) (encoded : List UInt8)
deriving DecidableEq

def KeyValue.dataType : KeyValue → DataType
  | .int32 _ => .int32
  | .int64 _ => .int64
  | .utf8 _ => .utf8
  | .other name _ => .other name

abbrev OwnedRow := List KeyValue

structure Row (α : Type*) where
  key : List (Option KeyValue)
  payload : α
deriving DecidableEq

def ownedKey (key : List (Option KeyValue)) : Option OwnedRow :=
  if key.any Option.isNone then none else some key.reduceOption

def Row.ownedKey {α : Type*} (row : Row α) : Option OwnedRow := Execution.ownedKey row.key

def cellsMatch : List (Option KeyValue) → List DataType → Bool
  | [], [] => true
  | cell :: cells, type :: types => cell.all (·.dataType = type) && cellsMatch cells types
  | _, _ => false

structure RecordBatch (α : Type*) where
  keyTypes : List DataType
  rows : List (Row α)
  typed : ∀ row ∈ rows, cellsMatch row.key keyTypes = true

def RecordBatch.numRows {α : Type*} (batch : RecordBatch α) : ℕ := batch.rows.length

def allRows {α : Type*} (batches : List (RecordBatch α)) : Multiset (Row α) :=
  ↑(batches.flatMap RecordBatch.rows)

def nonEmptyBatches {α : Type*} (batches : List (RecordBatch α)) : List (RecordBatch α) :=
  batches.filter fun batch => 0 < batch.numRows

/-- `collect_non_empty_batches` on what an input stream yields. -/
def collectNonEmptyBatches {α : Type} (input : List (Result (RecordBatch α))) :
    Result (List (RecordBatch α)) :=
  nonEmptyBatches <$> input.mapM id

variable {α : Type*} {key : List (Option KeyValue)}

@[simp] theorem allRows_nil : allRows ([] : List (RecordBatch α)) = 0 := rfl
@[simp] theorem allRows_cons (batch : RecordBatch α) (batches : List (RecordBatch α)) :
    allRows (batch :: batches) = ↑batch.rows + allRows batches := rfl

theorem allRows_nonEmptyBatches (batches : List (RecordBatch α)) :
    allRows (nonEmptyBatches batches) = allRows batches := by
  induction batches with
  | nil => rfl
  | cons batch batches ih =>
    unfold nonEmptyBatches at ih ⊢
    rw [allRows_cons,List.filter_cons]
    split
    · rw [allRows_cons,ih]
    · next h =>
      have hr : batch.rows = [] := by simpa [RecordBatch.numRows,List.length_pos_iff] using h
      rw [ih,hr]
      exact (zero_add _).symm

theorem allRows_nonEmptyBatches_ne {batches : List (RecordBatch α)}
    (h : nonEmptyBatches batches ≠ []) : allRows (nonEmptyBatches batches) ≠ 0 := by
  obtain ⟨batch,hmem⟩ := List.exists_mem_of_ne_nil _ h
  have hrows : 0 < batch.rows.length := of_decide_eq_true (List.mem_filter.mp hmem).2
  obtain ⟨row,hrow⟩ := List.exists_mem_of_length_pos hrows
  intro hz
  have hin : row ∈ allRows (nonEmptyBatches batches) :=
    Multiset.mem_coe.mpr (List.mem_flatMap.mpr ⟨batch,hmem,hrow⟩)
  rw [hz] at hin
  exact absurd hin (Multiset.notMem_zero row)

/-- A typed reading of a key together with the row format it stands for. -/
structure KeyLayout (κ : Type*) where
  types : List DataType
  read : List (Option KeyValue) → Option κ
  embed : κ → OwnedRow
  embed_injective : Function.Injective embed
  ownedKey_eq : ∀ key, cellsMatch key types = true → ownedKey key = (read key).map embed

theorem cellsMatch_one {type : DataType} (h : cellsMatch key [type] = true) :
    key = [none] ∨ ∃ v : KeyValue, key = [some v] ∧ v.dataType = type := by
  match key with
  | [] => simp [cellsMatch] at h
  | [none] => exact Or.inl rfl
  | [some v] => exact Or.inr ⟨v,rfl,by simpa [cellsMatch] using h⟩
  | _ :: _ :: _ => simp [cellsMatch] at h

def int32Layout : KeyLayout Int32 where
  types := [.int32]
  read
    | [some (.int32 v)] => some v
    | _ => none
  embed v := [.int32 v]
  embed_injective _ _ h := by simpa using h
  ownedKey_eq key h := by
    rcases cellsMatch_one h with rfl | ⟨v,rfl,hv⟩
    · rfl
    · cases v <;> simp [KeyValue.dataType] at hv
      rfl

def int64Layout : KeyLayout Int64 where
  types := [.int64]
  read
    | [some (.int64 v)] => some v
    | _ => none
  embed v := [.int64 v]
  embed_injective _ _ h := by simpa using h
  ownedKey_eq key h := by
    rcases cellsMatch_one h with rfl | ⟨v,rfl,hv⟩
    · rfl
    · cases v <;> simp [KeyValue.dataType] at hv
      rfl

def utf8Layout : KeyLayout String where
  types := [.utf8]
  read
    | [some (.utf8 v)] => some v
    | _ => none
  embed v := [.utf8 v]
  embed_injective _ _ h := by simpa using h
  ownedKey_eq key h := by
    rcases cellsMatch_one h with rfl | ⟨v,rfl,hv⟩
    · rfl
    · cases v <;> simp [KeyValue.dataType] at hv
      rfl

theorem cellsMatch_cons {type : DataType} {types : List DataType}
    (h : cellsMatch key (type :: types) = true) :
    ∃ cell cells, key = cell :: cells ∧ (∀ v ∈ cell, v.dataType = type) ∧
      cellsMatch cells types = true := by
  cases key with
  | nil => simp [cellsMatch] at h
  | cons cell cells =>
    rw [cellsMatch,Bool.and_eq_true] at h
    refine ⟨cell,cells,rfl,?_,h.2⟩
    rintro v ⟨⟩
    simpa using h.1

def int32PairLayout : KeyLayout (Int32 × Int32) where
  types := [.int32,.int32]
  read
    | [some (.int32 a),some (.int32 b)] => some (a,b)
    | _ => none
  embed v := [.int32 v.1,.int32 v.2]
  embed_injective a b h := by
    simp only [List.cons.injEq,KeyValue.int32.injEq,and_true] at h
    exact Prod.ext h.1 h.2
  ownedKey_eq key h := by
    obtain ⟨a,rest,rfl,ha,hrest⟩ := cellsMatch_cons h
    rcases cellsMatch_one hrest with rfl | ⟨v,rfl,hv⟩
    · rcases a with _ | a
      · rfl
      · cases a <;> rfl
    · rcases a with _ | a
      · rfl
      · have ha := ha a rfl
        cases a <;> simp [KeyValue.dataType] at ha
        cases v <;> simp [KeyValue.dataType] at hv
        rfl

/-- The row format itself, for any column types. -/
def rowLayout (types : List DataType) : KeyLayout OwnedRow where
  types := types
  read := ownedKey
  embed := id
  embed_injective := Function.injective_id
  ownedKey_eq key _ := by rw [Option.map_id]; rfl

end Dodam.Execution
