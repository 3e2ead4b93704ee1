import Dodam.Sql.FilterMeaning
import Dodam.Sql.SubqueryLiterals

/-! # Filters of literals that stand for cells

A comparison with a literal, and a list of literals, evaluate in every row to the
truth value that the cells they stand for give.
-/
namespace Dodam.Sql
open Foundation Execution

section Columns
variable {γ : Type*} (floats : Floats) (order : γ → String → Option Ordering)

/-- The column that a name resolves to, with its type and its values. -/
def HoldsColumn (batch : Batch γ) (column : String) (type : TestedType) (data : List (Option (Datum γ))) : Prop :=
  ∃ index name stored, columnIndex batch.names column = .ok index ∧ batch.columns[index]? = some (name,stored) ∧
    columnData stored = some (type,data) ∧ data.length = batch.numRows

def Cell.StandsFor (type : TestedType) (column : String) (cell : Cell) (literal : LiteralValue) : Prop :=
  (cell = .null ∧ literal = .null) ∨ (cell ≠ .null ∧ literal ≠ .null ∧
    ∃ d, typedLiteral floats type column literal = .ok d ∧ cell.datum floats type = some d)

variable {floats order}

variable {op : ComparisonOp} {batch : Batch γ} {type : TestedType} {data : List (Option (Datum γ))}
variable {column : String} {cells : List Cell} {literals : List LiteralValue}

theorem compare_typed {κ κ' : Type} [LinearOrder κ] {f : κ' → Datum γ} {g : κ → Datum String} {key : κ' → κ} {literal : Result κ} {values : List (Option κ')}
    (h : ∀ a b, (f a).compare order op (g b) = some (decide (op.Holds (key a) b))) :
    (literal.bind fun bound => .ok (Execution.compare (values.map (Option.map key)) bound op)) =
      (literal.map g).map fun d => (values.map (Option.map f)).map fun x => x.bind fun x => x.compare order op d := by
  cases literal with
  | error error => rfl
  | ok bound =>
    refine congrArg Except.ok ?_
    unfold Execution.compare
    dsimp only
    rw [List.map_map,List.map_map]
    refine List.map_congr_left fun value _ => ?_
    cases value with
    | none => rfl
    | some value => exact (h value bound).symm

theorem compare_typed_self {κ : Type} [LinearOrder κ] {f : κ → Datum γ} {g : κ → Datum String} {literal : Result κ} {values : List (Option κ)}
    (h : ∀ a b, (f a).compare order op (g b) = some (decide (op.Holds a b))) :
    (literal.bind fun bound => .ok (Execution.compare values bound op)) =
      (literal.map g).map fun d => (values.map (Option.map f)).map fun x => x.bind fun x => x.compare order op d := by
  have hkeys : (literal.bind fun bound => .ok (Execution.compare (values.map (Option.map id)) bound op)) = _ :=
    compare_typed h
  rwa [Option.map_id,List.map_id] at hkeys

theorem holds_cast {a b : ℤ} : decide (op.Holds (a : ℚ) b) = decide (op.Holds a b) :=
  decide_eq_decide.mpr (OrderTest.holds_map (f := fun n : ℤ => (n : ℚ)) Int.cast_strictMono op a b)

theorem holds_scale {a b : ℤ} {k : ℚ} (hk : 0 < k) :
    decide (op.Holds ((a : ℚ) * k) (b * k)) = decide (op.Holds a b) :=
  decide_eq_decide.mpr (OrderTest.holds_map (f := fun n : ℤ => (n : ℚ) * k)
    (fun _ _ h => mul_lt_mul_of_pos_right (Int.cast_lt.mpr h) hk) op a b)

theorem holds_div {a b : ℤ} {k : ℚ} (hk : 0 < k) :
    decide (op.Holds ((a : ℚ) / k) (b / k)) = decide (op.Holds a b) := by
  rw [div_eq_mul_inv,div_eq_mul_inv]
  exact holds_scale (inv_pos.mpr hk)

variable {kernels : Kernels γ} (hdoubles : ComparesDoubles floats order kernels)
include hdoubles

theorem evaluateBatchComparison_typed
    {comparison : ComparisonExpr} (hcolumn : HoldsColumn batch comparison.column type data)
    (hnull : comparison.value ≠ .null) : evaluateBatchComparison kernels batch comparison =
      (typedLiteral floats type comparison.column comparison.value).map fun d =>
        data.map fun x => x.bind fun x => x.compare order comparison.op d := by
  obtain ⟨index,name,stored,hindex,hstored,hdata,-⟩ := hcolumn
  unfold evaluateBatchComparison
  rw [if_neg hnull,hindex]
  dsimp only [Except.bind]
  rw [hstored]
  cases stored with
  | float64 values =>
    cases hdata
    dsimp only
    rw [hdoubles]
    unfold typedLiteral
    cases literalAsDouble floats comparison.column comparison.value with
    | error error => rfl
    | ok bound =>
      refine congrArg Except.ok ?_
      dsimp only
      rw [List.map_map]
      rfl
  | stored column =>
    dsimp only
    unfold evaluateComparison
    dsimp only
    rw [if_neg hnull]
    cases column with
    | unsupported dataType rows => cases hdata
    | int32 values | int64 values | uint64 values =>
      cases hdata
      exact compare_typed fun a b => congrArg some holds_cast
    | boolean values =>
      cases hdata
      exact compare_typed_self fun a b => rfl
    | date32 values =>
      cases hdata
      exact compare_typed fun a b => congrArg some (holds_scale (by norm_num))
    | date64 values =>
      cases hdata
      exact compare_typed fun a b => congrArg some (holds_div (by norm_num))
    | scaled type values =>
      cases hdata
      refine compare_typed_self fun a b => ?_
      cases type with
      | decimal128 precision scale | timestamp unit => exact congrArg some (holds_div (ScaledType.unitsPerOne_pos _))
    | utf8 values =>
      cases hdata
      have hread : typedLiteral floats .utf8 comparison.column comparison.value =
          Except.map .text (.ok comparison.value.asStr) := rfl
      have hself : ∀ a b : String, (Datum.text a).compare order comparison.op (.text b) =
          some (decide (comparison.op.Holds a b)) := fun _ _ => rfl
      have hkernel : ((.ok comparison.value.asStr : Result String).bind fun bound =>
          .ok (Execution.compare values bound comparison.op)) = _ := compare_typed_self hself
      rw [hread]
      exact hkernel

omit hdoubles in
theorem compareCell_null (x : Option (Datum γ)) :
    compareCell floats order op type x .null = none := by
  cases x <;> rfl

theorem evaluateBatchComparison_cell {cell : Cell} {literal : LiteralValue}
    (hcolumn : HoldsColumn batch column type data) (h : cell.StandsFor floats type column literal) :
    evaluateBatchComparison kernels batch ⟨column,op,literal⟩ =
      .ok (data.map fun x => compareCell floats order op type x cell) := by
  rcases h with ⟨rfl,rfl⟩ | ⟨-,hliteral,d,hd,hcell⟩
  · obtain ⟨-,-,-,-,-,-,hlength⟩ := hcolumn
    have hnone : (data.map fun x => compareCell floats order op type x .null) = List.replicate batch.numRows none := by
      rw [← hlength]
      exact List.eq_replicate_iff.mpr ⟨List.length_map _,List.forall_mem_map.mpr fun x _ => compareCell_null x⟩
    rw [hnone]
    exact if_pos rfl
  · rw [evaluateBatchComparison_typed hdoubles hcolumn hliteral,hd]
    refine congrArg Except.ok (List.map_congr_left fun x _ => ?_)
    unfold compareCell
    rw [hcell]
    rfl

theorem foldlM_cells (hcolumn : HoldsColumn batch column type data)
    (h : List.Forall₂ (Cell.StandsFor floats type column) cells literals) (found : Option (Datum γ) → Option Bool) :
    literals.foldlM (fun mask value => (evaluateBatchComparison kernels batch ⟨column,.eq,value⟩).map (orMasks mask))
        (data.map found) =
      .ok (data.map fun x => cells.foldl (fun found cell => orKleene found (compareCell floats order .eq type x cell)) (found x)) := by
  induction h generalizing found with
  | nil => rfl
  | @cons cell literal cells literals hcell _ ih =>
    have hmask : ∀ g : Option (Datum γ) → Option Bool,
        orMasks (data.map found) (data.map g) = data.map fun x => orKleene (found x) (g x) := by
      intro g
      unfold orMasks
      rw [List.zipWith_map,List.zipWith_self]
    rw [List.foldlM_cons,evaluateBatchComparison_cell hdoubles hcolumn hcell]
    refine bind_eq_ok_iff.mpr ⟨_,congrArg Except.ok (hmask _),?_⟩
    exact ih _

omit hdoubles in
theorem forall₂_nonNull (h : List.Forall₂ (Cell.StandsFor floats type column) cells literals) :
    List.Forall₂ (Cell.StandsFor floats type column) (cells.filter fun cell => decide (cell ≠ .null))
        (nonNullSubqueryValues literals) ∧
      subqueryValuesContainNull literals = cells.any fun cell => !decide (cell ≠ .null) := by
  induction h with
  | nil => exact ⟨.nil,rfl⟩
  | @cons cell literal cells literals hcell _ ih =>
    obtain ⟨hrest,hany⟩ := ih
    unfold nonNullSubqueryValues subqueryValuesContainNull at *
    rcases hcell with ⟨rfl,rfl⟩ | ⟨hcell,hliteral,hread⟩
    · exact ⟨hrest,by simp⟩
    · simp only [List.filter_cons,decide_eq_true hcell,decide_eq_true hliteral,if_true,List.any_cons,hany,
        decide_eq_false hliteral]
      exact ⟨.cons (Or.inr ⟨hcell,hliteral,hread⟩) hrest,rfl⟩

theorem evaluateFilter_inList {negated : Bool} (hcolumn : HoldsColumn batch column type data)
    (h : List.Forall₂ (Cell.StandsFor floats type column) cells literals) :
    evaluateFilter kernels batch
        (.inList column (nonNullSubqueryValues literals) negated (subqueryValuesContainNull literals)) =
      .ok (data.map ((SubqueryUse.membership negated).truth floats order type cells)) := by
  obtain ⟨hfilter,hany⟩ := forall₂_nonNull h
  obtain ⟨-,-,-,-,-,-,hlength⟩ := id hcolumn
  have hstart : List.replicate batch.numRows (some false) = data.map fun _ => some false := by
    rw [← hlength,List.map_const']
  have hunknown : ∀ (x : Option (Datum γ)) (cell : Cell), decide (cell ≠ .null) = false →
      compareCell floats order .eq type x cell = none := by
    intro x cell hcell
    have hnull : cell = .null := by simpa using hcell
    rw [hnull,compareCell_null]
  have hnulls : ∀ found : Option (Datum γ) → Option Bool,
      (if subqueryValuesContainNull literals then nullifyFalseValues (data.map found) else data.map found) =
        data.map fun x => if subqueryValuesContainNull literals then (if found x = some true then found x else none)
          else found x := by
    intro found
    split_ifs
    · exact List.map_map
    · rfl
  unfold evaluateFilter evaluateInList
  rw [hstart,foldlM_cells hdoubles hcolumn hfilter]
  refine congrArg Except.ok ?_
  dsimp only
  rw [hnulls]
  simp only [hany,foldl_orKleene_filter (hunknown _)]
  cases negated with
  | false => rfl
  | true => exact List.map_map

end Columns
end Dodam.Sql
