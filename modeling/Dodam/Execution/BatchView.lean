import Dodam.Execution.Filter.Expr
import Dodam.Foundation.Bitmap
import Dodam.Foundation.HybridRuns

/-! # Views of a batch

A scan hands a batch over as it is, or as columns that are not arrays yet: plain values,
little-endian bytes, or values with a definition level for each row.
-/
namespace Dodam.Execution
open Foundation

def readI32LeUnaligned (data : List UInt8) (row : ℕ) : Int32 := Int32.ofInt (leNat ((data.drop (row * 4)).take 4))

def readI64LeUnaligned (data : List UInt8) (row : ℕ) : Int64 := Int64.ofInt (leNat ((data.drop (row * 8)).take 8))

/-- The views `I64VectorView` and `I32VectorView`; a `Date32VectorView` has no levels. -/
inductive VectorView (α : Type)
  | arrow (values : List (Option α))
  | raw (values : List α)
  | rawBytes (data : List UInt8) (len : ℕ)
  | rawNullable (values : List α) (defLevels : List Int16)

def nullableValueIndex (defLevels : List Int16) (row : ℕ) : ℕ := (defLevels.take row).countP (· ≠ 0)

namespace VectorView
variable {α : Type}

def len : VectorView α → ℕ
  | .arrow values => values.length
  | .raw values => values.length
  | .rawBytes _ len => len
  | .rawNullable _ defLevels => defLevels.length

def isNull (view : VectorView α) (row : ℕ) : Bool :=
  match view with
  | .arrow values => (values.getD row none).isNone
  | .raw _ | .rawBytes _ _ => false
  | .rawNullable _ defLevels => defLevels[row]? = some 0

def value [Inhabited α] (read : List UInt8 → ℕ → α) (view : VectorView α) (row : ℕ) : α :=
  match view with
  | .arrow values => (values.getD row none).getD default
  | .raw values => values.getD row default
  | .rawBytes data _ => read data row
  | .rawNullable values defLevels =>
    if values.length = defLevels.length then values.getD row default
    else values.getD (nullableValueIndex defLevels row) default

def valuesIfNullFree [Inhabited α] : VectorView α → Option (List α)
  | .arrow values => if values.countP (·.isNone) = 0 then some (values.map fun value => value.getD default) else none
  | .raw values => some values
  | .rawBytes _ _ => none
  | .rawNullable values defLevels =>
    if values.length = defLevels.length ∧ defLevels.all (· ≠ 0) then some values else none

def bytes : VectorView α → Option (List UInt8 × ℕ)
  | .rawBytes data len => some (data,len)
  | _ => none

/-- The values one after the other, where the level of a row is not zero. -/
def placed : List α → List Int16 → List (Option α)
  | _, [] => []
  | values, level :: levels =>
    if level = 0 then none :: placed values levels else values.head? :: placed values.tail levels

def content (read : List UInt8 → ℕ → α) : VectorView α → List (Option α)
  | .arrow values => values
  | .raw values => values.map some
  | .rawBytes data len => (List.range len).map fun row => some (read data row)
  | .rawNullable values defLevels =>
    if values.length = defLevels.length then
      List.zipWith (fun value level => if level = 0 then none else some value) values defLevels
    else placed values defLevels

/-- Values under levels have a place for each row, or one for each row that is not NULL. -/
def WellFormed : VectorView α → Prop
  | .rawNullable values defLevels =>
    values.length = defLevels.length ∨ values.length = defLevels.countP (· ≠ 0)
  | _ => True

@[simp] theorem length_placed {values : List α} {levels : List Int16} : (placed values levels).length = levels.length := by
  induction levels generalizing values with
  | nil => rfl
  | cons level levels ih =>
    unfold placed
    split_ifs <;> simp [ih]

section Content
variable [Inhabited α] {read : List UInt8 → ℕ → α} {view : VectorView α}

theorem getElem?_placed {values : List α} {levels : List Int16} (h : values.length = levels.countP (· ≠ 0)) {row : ℕ}
    (hrow : row < levels.length) : (placed values levels)[row]? =
      some (if levels[row]? = some 0 then none else some (values.getD (nullableValueIndex levels row) default)) := by
  induction levels generalizing values row with
  | nil => exact absurd hrow (Nat.not_lt_zero _)
  | cons level levels ih =>
    unfold placed
    cases row with
    | zero =>
      split_ifs with hlevel hzero hzero
      · rfl
      · exact absurd (congrArg some hlevel) hzero
      · exact absurd (Option.some.inj hzero) hlevel
      · cases values with
        | nil => simp [hlevel] at h
        | cons value values => rfl
    | succ row =>
      have hrow' : row < levels.length := by simpa using hrow
      by_cases hlevel : level = 0
      · rw [if_pos hlevel,List.getElem?_cons_succ,List.getElem?_cons_succ,
          ih (by simpa [hlevel] using h) hrow']
        simp [nullableValueIndex,hlevel]
      · rw [if_neg hlevel,List.getElem?_cons_succ,List.getElem?_cons_succ]
        cases values with
        | nil => simp [hlevel] at h
        | cons value values =>
          rw [List.tail_cons,ih (by simpa [hlevel] using h) hrow']
          simp [nullableValueIndex,hlevel]

theorem content_eq (h : view.WellFormed) : view.content read =
    (List.range view.len).map fun row => if view.isNull row then none else some (view.value read row) := by
  cases view with
  | arrow values =>
    have hslot : ∀ slot : Option α, slot = if slot.isNone = true then none else some (slot.getD default) := fun slot => by
      cases slot <;> rfl
    exact (map_range_getD values none).symm.trans (List.map_congr_left fun row _ => hslot _)
  | raw values =>
    refine (congrArg (List.map some) (map_range_getD values default)).symm.trans ?_
    rw [List.map_map]
    rfl
  | rawBytes data len => rfl
  | rawNullable values defLevels =>
    have hlength : (content read (rawNullable values defLevels)).length = defLevels.length := by
      rw [content]
      split_ifs with hlength <;> simp [hlength]
    refine List.ext_getElem? fun row => ?_
    rcases lt_or_ge row defLevels.length with hrow | hrow
    · rw [List.getElem?_map]
      simp only [content,len,isNull,value,decide_eq_true_eq]
      rw [List.getElem?_range hrow,Option.map_some]
      by_cases hvalues : values.length = defLevels.length
      · rw [if_pos hvalues,if_pos hvalues,List.getElem?_zipWith,List.getElem?_eq_getElem hrow,
          List.getElem?_eq_getElem (hvalues ▸ hrow),List.getD_eq_getElem _ _ (hvalues ▸ hrow)]
        simp
      · rw [if_neg hvalues,if_neg hvalues]
        exact getElem?_placed (h.resolve_left hvalues) hrow
    · rw [List.getElem?_eq_none (by rw [hlength]; exact hrow),List.getElem?_eq_none (by simpa [len] using hrow)]

theorem content_of_nullFree {values : List α} (hfree : view.valuesIfNullFree = some values) :
    view.content read = values.map some := by
  cases view with
  | arrow stored =>
    rw [valuesIfNullFree] at hfree
    split_ifs at hfree with hnone
    cases hfree
    rw [List.map_map]
    refine (List.map_id _).symm.trans (List.map_congr_left fun value hvalue => ?_)
    have hsome := List.countP_eq_zero.mp hnone value hvalue
    cases value with
    | none => exact absurd rfl hsome
    | some value => rfl
  | raw stored =>
    cases hfree
    rfl
  | rawBytes data len => cases hfree
  | rawNullable stored defLevels =>
    rw [valuesIfNullFree] at hfree
    split_ifs at hfree with hlevels
    cases hfree
    obtain ⟨hlength,hall⟩ := hlevels
    rw [List.all_eq_true] at hall
    rw [content,if_pos hlength]
    apply List.ext_getElem (by simp [hlength])
    intro row hrow hrow'
    have hlevel := hall _ (List.getElem_mem (n := row) (by simpa [hlength] using hrow))
    rw [List.getElem_zipWith,List.getElem_map,if_neg (by simpa using hlevel)]

end Content

theorem content_of_bytes {read : List UInt8 → ℕ → α} {view : VectorView α} {data : List UInt8} {len : ℕ}
    (hbytes : view.bytes = some (data,len)) : view.content read = (List.range len).map fun row => some (read data row) := by
  cases view with
  | rawBytes data' len' =>
    cases hbytes
    rfl
  | _ => cases hbytes

end VectorView

open VectorView

inductive RawColumnView
  | i64 (values : List Int64)
  | i64Bytes (data : List UInt8) (len : ℕ)
  | i64Nullable (values : List Int64) (defLevels : List Int16)
  | i32 (values : List Int32)
  | i32Bytes (data : List UInt8) (len : ℕ)
  | i32Nullable (values : List Int32) (defLevels : List Int16)
  | date32 (values : List Int32)
  | date32Bytes (data : List UInt8) (len : ℕ)
  | decimal128I64 (values : List Int64) (precision : UInt8) (scale : Int8)
  | decimal128I64Bytes (data : List UInt8) (len : ℕ) (precision : UInt8) (scale : Int8)

inductive BatchView (γ : Type*)
  | recordBatch (batch : Batch γ)
  | rawColumns (columns : List RawColumnView)

namespace RawColumnView

def len : RawColumnView → ℕ
  | .i64 values => values.length
  | .i64Bytes _ len | .i32Bytes _ len | .date32Bytes _ len => len
  | .i64Nullable _ defLevels | .i32Nullable _ defLevels => defLevels.length
  | .i32 values | .date32 values => values.length
  | .decimal128I64 values _ _ => values.length
  | .decimal128I64Bytes _ len _ _ => len

def i64Vector : RawColumnView → Option (VectorView Int64)
  | .i64 values => some (.raw values)
  | .i64Bytes data len => some (.rawBytes data len)
  | .i64Nullable values defLevels => some (.rawNullable values defLevels)
  | _ => none

def i32Vector : RawColumnView → Option (VectorView Int32)
  | .i32 values => some (.raw values)
  | .i32Bytes data len => some (.rawBytes data len)
  | .i32Nullable values defLevels => some (.rawNullable values defLevels)
  | _ => none

def date32Vector : RawColumnView → Option (VectorView Int32)
  | .date32 values => some (.raw values)
  | .date32Bytes data len => some (.rawBytes data len)
  | _ => none

def column (view : RawColumnView) : Column :=
  match view with
  | .i64 values => .int64 ((raw values).content readI64LeUnaligned)
  | .i64Bytes data len => .int64 ((rawBytes data len).content readI64LeUnaligned)
  | .i64Nullable values defLevels => .int64 ((rawNullable values defLevels).content readI64LeUnaligned)
  | .i32 values => .int32 ((raw values).content readI32LeUnaligned)
  | .i32Bytes data len => .int32 ((rawBytes data len).content readI32LeUnaligned)
  | .i32Nullable values defLevels => .int32 ((rawNullable values defLevels).content readI32LeUnaligned)
  | .date32 values => .date32 ((raw values).content readI32LeUnaligned)
  | .date32Bytes data len => .date32 ((rawBytes data len).content readI32LeUnaligned)
  | .decimal128I64 values precision scale =>
    .scaled (.decimal128 precision scale) (values.map fun value => some value.toInt)
  | .decimal128I64Bytes data len precision scale =>
    .scaled (.decimal128 precision scale) ((List.range len).map fun row => some (readI64LeUnaligned data row).toInt)

/-- The bytes reach as far as the rows, and the levels fit the values. -/
def WellFormed : RawColumnView → Prop
  | .i64Bytes data len | .decimal128I64Bytes data len _ _ => len * 8 ≤ data.length
  | .i32Bytes data len | .date32Bytes data len => len * 4 ≤ data.length
  | .i64Nullable values defLevels => (rawNullable values defLevels).WellFormed
  | .i32Nullable values defLevels => (rawNullable values defLevels).WellFormed
  | _ => True

end RawColumnView

def BatchColumn.numRows {γ : Type*} : BatchColumn γ → ℕ
  | .stored column => column.numRows
  | .float64 values => values.length

namespace BatchView
variable {γ : Type*}

def numColumns : BatchView γ → ℕ
  | .recordBatch batch => batch.columns.length
  | .rawColumns columns => columns.length

def numRows : BatchView γ → ℕ
  | .recordBatch batch => batch.numRows
  | .rawColumns columns => (columns.head?.map RawColumnView.len).getD 0

def i64Vector (view : BatchView γ) (index : ℕ) : Option (VectorView Int64) :=
  match view with
  | .recordBatch batch =>
    match batch.columns[index]? with
    | some (_,.stored (.int64 values)) => some (.arrow values)
    | _ => none
  | .rawColumns columns => columns[index]?.bind RawColumnView.i64Vector

def i32Vector (view : BatchView γ) (index : ℕ) : Option (VectorView Int32) :=
  match view with
  | .recordBatch batch =>
    match batch.columns[index]? with
    | some (_,.stored (.int32 values)) => some (.arrow values)
    | _ => none
  | .rawColumns columns => columns[index]?.bind RawColumnView.i32Vector

def date32Vector (view : BatchView γ) (index : ℕ) : Option (VectorView Int32) :=
  match view with
  | .recordBatch batch =>
    match batch.columns[index]? with
    | some (_,.stored (.date32 values)) => some (.arrow values)
    | _ => none
  | .rawColumns columns => columns[index]?.bind RawColumnView.date32Vector

def arrays : BatchView γ → List (BatchColumn γ)
  | .recordBatch batch => batch.columns.map Prod.snd
  | .rawColumns columns => columns.map fun column => .stored column.column

def WellFormed : BatchView γ → Prop
  | .recordBatch batch => ∀ column ∈ batch.columns, column.2.numRows = batch.numRows
  | .rawColumns columns =>
    ∀ column ∈ columns, column.len = (BatchView.rawColumns (γ := γ) columns).numRows ∧ column.WellFormed

end BatchView

open BatchView

/-- A view with the names of the columns it was projected to. -/
structure ProjectedView (γ : Type*) where
  view : BatchView γ
  columns : List String
  length_columns : columns.length = view.numColumns
  wellFormed : view.WellFormed

def ProjectedView.batch {γ : Type*} (projected : ProjectedView γ) : Batch γ :=
  ⟨projected.view.numRows,projected.columns.zip projected.view.arrays⟩

section Vectors
variable {γ : Type*} {view : BatchView γ} {index : ℕ}

theorem VectorView.length_content {α : Type} {read : List UInt8 → ℕ → α} {view : VectorView α} :
    (view.content read).length = view.len := by
  cases view with
  | rawNullable values defLevels =>
    rw [content]
    split_ifs with hlength <;> simp [hlength,len]
  | _ => simp [content,len]

/-- The vector of a column holds what the column holds. -/
theorem arrays_of_vectors (hview : view.WellFormed) :
    (∀ vector, view.i64Vector index = some vector → view.arrays[index]? = some (.stored (.int64 (vector.content readI64LeUnaligned))) ∧
      vector.WellFormed ∧ vector.len = view.numRows) ∧
    (∀ vector, view.i32Vector index = some vector → view.arrays[index]? = some (.stored (.int32 (vector.content readI32LeUnaligned))) ∧
      vector.WellFormed ∧ vector.len = view.numRows) ∧
    ∀ vector, view.date32Vector index = some vector → view.arrays[index]? = some (.stored (.date32 (vector.content readI32LeUnaligned))) ∧
      vector.WellFormed ∧ vector.len = view.numRows := by
  cases view with
  | recordBatch batch =>
    refine ⟨?_,?_,?_⟩ <;>
    · intro vector h
      simp only [i64Vector,i32Vector,date32Vector] at h
      split at h
      · rename_i name values hcolumn
        cases h
        rw [arrays,List.getElem?_map,hcolumn]
        exact ⟨rfl,trivial,hview _ (List.mem_of_getElem? hcolumn)⟩
      · cases h
  | rawColumns columns =>
    refine ⟨?_,?_,?_⟩ <;>
    · intro vector h
      obtain ⟨column,hcolumn,hvector⟩ := Option.bind_eq_some_iff.mp h
      obtain ⟨hrows,hwell⟩ := hview _ (List.mem_of_getElem? hcolumn)
      rw [arrays,List.getElem?_map,hcolumn,← hrows]
      cases column <;> cases hvector <;> first | exact ⟨rfl,trivial,rfl⟩ | exact ⟨rfl,hwell,rfl⟩

end Vectors
end Dodam.Execution
