import Dodam.Execution.ColumnIndex
import Dodam.Execution.Filter.Comparison
import Dodam.Execution.Filter.Like

/-! # Evaluating a filter on a batch

A filter is a tree of conditions on columns. How floating-point columns are compared, and how
two columns are compared or tested, is left to the kernels.
-/
namespace Dodam.Execution
open Foundation

/-- A column of a batch; floating-point values are left to the kernels. -/
inductive BatchColumn (γ : Type*)
  | stored (column : Column)
  | float64 (values : List γ)

structure Batch (γ : Type*) where
  numRows : ℕ
  columns : List (String × BatchColumn γ)

def Batch.names {γ : Type*} (batch : Batch γ) : List String := batch.columns.map Prod.fst

inductive Expr
  | boolean (value : Option Bool)
  | comparison (comparison : ComparisonExpr)
  | columnComparison (left : String) (op : ComparisonOp) (right : String)
  | inList (column : String) (values : List LiteralValue) (negated hasNull : Bool)
  | like (like : LikeExpr)
  | isNull (column : String) (negated : Bool)
  | not (expr : Expr)
  | and (left right : Expr)
  | or (left right : Expr)

abbrev Mask := List (Option Bool)

structure Kernels (γ : Type*) where
  float64Comparison : List γ → ComparisonExpr → Result Mask
  columnComparison : Batch γ → String → ComparisonOp → String → Result Mask
  like : Batch γ → LikeExpr → Result Mask
  isNull : Batch γ → String → Bool → Result Mask

section Masks

def andKleene : Option Bool → Option Bool → Option Bool
  | some false, _ => some false
  | _, some false => some false
  | some true, some true => some true
  | _, _ => none

def orKleene : Option Bool → Option Bool → Option Bool
  | some true, _ => some true
  | _, some true => some true
  | some false, some false => some false
  | _, _ => none

def andMasks (left right : Mask) : Mask := List.zipWith andKleene left right
def orMasks (left right : Mask) : Mask := List.zipWith orKleene left right
def notMask (mask : Mask) : Mask := mask.map (Option.map not)

def nullifyFalseValues (mask : Mask) : Mask := mask.map fun value => if value = some true then value else none

end Masks

section Evaluate
variable {γ : Type*} (kernels : Kernels γ) (batch : Batch γ)

/-- `evaluate_comparison`, with the column its name resolves to. -/
def evaluateBatchComparison (comparison : ComparisonExpr) : Result Mask :=
  if comparison.value = .null then .ok (List.replicate batch.numRows none)
  else
    (columnIndex batch.names comparison.column).bind fun index =>
      match batch.columns[index]? with
      | some (_,.stored column) => evaluateComparison column comparison
      | some (_,.float64 values) => kernels.float64Comparison values comparison
      | none => .error .panicked

variable {batch} in
theorem evaluateBatchComparison_stored {name field : String} {column : Column} {index : ℕ} (op : ComparisonOp)
    {value : LiteralValue} (hnull : value ≠ .null) (hindex : columnIndex batch.names name = .ok index)
    (hcolumn : batch.columns[index]? = some (field,.stored column)) :
    evaluateBatchComparison kernels batch ⟨name,op,value⟩ = evaluateComparison column ⟨name,op,value⟩ := by
  unfold evaluateBatchComparison
  rw [if_neg hnull,hindex]
  simp only [Except.bind,hcolumn]

def evaluateInList (column : String) (values : List LiteralValue) (negated hasNull : Bool) : Result Mask :=
  (values.foldlM (fun mask value =>
      (evaluateBatchComparison kernels batch ⟨column,.eq,value⟩).map (orMasks mask))
    (List.replicate batch.numRows (some false))).map fun mask =>
      let mask := if hasNull then nullifyFalseValues mask else mask
      if negated then notMask mask else mask

def evaluateFilter : Expr → Result Mask
  | .boolean value => .ok (List.replicate batch.numRows value)
  | .comparison comparison => evaluateBatchComparison kernels batch comparison
  | .columnComparison left op right => kernels.columnComparison batch left op right
  | .inList column values negated hasNull => evaluateInList kernels batch column values negated hasNull
  | .like like => kernels.like batch like
  | .isNull column negated => kernels.isNull batch column negated
  | .not expr => (evaluateFilter expr).map notMask
  | .and left right => (evaluateFilter left).bind fun left => (evaluateFilter right).map (andMasks left)
  | .or left right => (evaluateFilter left).bind fun left => (evaluateFilter right).map (orMasks left)

/-- The positions of the rows that `filter_batch` keeps. -/
def filterBatch (filter : Option Expr) : Result (List ℕ) :=
  match filter with
  | none => .ok (List.range batch.numRows)
  | some expr => (evaluateFilter kernels batch expr).map fun mask =>
      (List.range batch.numRows).filter fun row => mask[row]? = some (some true)

end Evaluate

/-- `collect_conjuncts`: constants, negations, IN lists and NULL tests are left out. -/
def Expr.conjuncts : Expr → List Expr
  | .and left right => left.conjuncts ++ right.conjuncts
  | .boolean _ => []
  | .not _ => []
  | .inList _ _ _ _ => []
  | .isNull _ _ => []
  | expr => [expr]

def Expr.KeepsConjuncts : Expr → Prop
  | .and left right => left.KeepsConjuncts ∧ right.KeepsConjuncts
  | .boolean _ => False
  | .not _ => False
  | .inList _ _ _ _ => False
  | .isNull _ _ => False
  | _ => True

def exprsToFilter : List Expr → Option Expr
  | [] => none
  | first :: rest => some (rest.foldl .and first)

section Passes
variable {γ : Type*} {kernels : Kernels γ} {batch : Batch γ} {a b : Option Bool}

theorem andKleene_eq_true : andKleene a b = some true ↔ a = some true ∧ b = some true := by
  rcases a with _ | (_ | _) <;> rcases b with _ | (_ | _) <;> simp [andKleene]

theorem orKleene_eq_true : orKleene a b = some true ↔ a = some true ∨ b = some true := by
  rcases a with _ | (_ | _) <;> rcases b with _ | (_ | _) <;> simp [orKleene]

theorem orKleene_eq_false : orKleene a b = some false ↔ a = some false ∧ b = some false := by
  rcases a with _ | (_ | _) <;> rcases b with _ | (_ | _) <;> simp [orKleene]

theorem truth_ext (htrue : a = some true ↔ b = some true)
    (hfalse : a = some false ↔ b = some false) : a = b := by
  rcases a with _ | (_ | _) <;> rcases b with _ | (_ | _) <;> simp_all

section Fold
variable {α : Type*} {f : α → Option Bool} {l : List α} {found : Option Bool}

theorem foldl_orKleene_eq_true : l.foldl (fun found a => orKleene found (f a)) found = some true ↔
    found = some true ∨ ∃ a ∈ l, f a = some true := by
  induction l generalizing found with
  | nil => simp
  | cons a l ih => rw [List.foldl_cons,ih,orKleene_eq_true,List.exists_mem_cons_iff,or_assoc]

theorem foldl_orKleene_eq_false : l.foldl (fun found a => orKleene found (f a)) found = some false ↔
    found = some false ∧ ∀ a ∈ l, f a = some false := by
  induction l generalizing found with
  | nil => simp
  | cons a l ih => rw [List.foldl_cons,ih,orKleene_eq_false,List.forall_mem_cons,and_assoc]

/-- The unknown members of a disjunction can be taken out, where it is remembered that there were some. -/
theorem foldl_orKleene_filter {p : α → Bool} (hp : ∀ a, p a = false → f a = none) :
    (if l.any fun a => !p a then
        (if (l.filter p).foldl (fun found a => orKleene found (f a)) (some false) = some true then
          (l.filter p).foldl (fun found a => orKleene found (f a)) (some false) else none)
      else (l.filter p).foldl (fun found a => orKleene found (f a)) (some false)) =
      l.foldl (fun found a => orKleene found (f a)) (some false) := by
  have htrue : (l.filter p).foldl (fun found a => orKleene found (f a)) (some false) = some true ↔
      l.foldl (fun found a => orKleene found (f a)) (some false) = some true := by
    rw [foldl_orKleene_eq_true,foldl_orKleene_eq_true]
    refine or_congr_right ⟨?_,?_⟩
    · rintro ⟨a,ha,h⟩
      exact ⟨a,List.mem_of_mem_filter ha,h⟩
    · rintro ⟨a,ha,h⟩
      refine ⟨a,List.mem_filter.mpr ⟨ha,?_⟩,h⟩
      cases hpa : p a with
      | true => rfl
      | false =>
        rw [hp a hpa] at h
        cases h
  by_cases hnull : (l.any fun a => !p a) = true
  · rw [if_pos hnull]
    have hnever : l.foldl (fun found a => orKleene found (f a)) (some false) ≠ some false := by
      obtain ⟨a,ha,hpa⟩ := List.any_eq_true.mp hnull
      intro hfalse
      have hat := (foldl_orKleene_eq_false.mp hfalse).2 a ha
      rw [hp a (by simpa using hpa)] at hat
      cases hat
    apply truth_ext
    · split_ifs with h
      · exact htrue
      · exact iff_of_false (by simp) (mt htrue.mpr h)
    · refine iff_of_false ?_ hnever
      split_ifs with h
      · rw [h]
        simp
      · simp
  · rw [if_neg hnull]
    have hall : l.filter p = l := by
      refine List.filter_eq_self.mpr fun a ha => ?_
      cases hpa : p a with
      | true => rfl
      | false => exact absurd (List.any_eq_true.mpr ⟨a,ha,by rw [hpa]; rfl⟩) hnull
    rw [hall]

end Fold

def Defined (kernels : Kernels γ) (batch : Batch γ) (expr : Expr) : Prop :=
  ∃ mask, evaluateFilter kernels batch expr = .ok mask

def Passes (kernels : Kernels γ) (batch : Batch γ) (expr : Expr) (row : ℕ) : Prop :=
  ∃ mask, evaluateFilter kernels batch expr = .ok mask ∧ mask[row]? = some (some true)

theorem passes_iff_of_ok {expr : Expr} {mask : Mask} (h : evaluateFilter kernels batch expr = .ok mask) (row : ℕ) :
    Passes kernels batch expr row ↔ mask[row]? = some (some true) := by
  constructor
  · rintro ⟨mask',hmask',hrow⟩
    cases h.symm.trans hmask'
    exact hrow
  · exact fun hrow => ⟨mask,h,hrow⟩

theorem defined_and {left right : Expr} :
    Defined kernels batch (.and left right) ↔ Defined kernels batch left ∧ Defined kernels batch right := by
  constructor
  · rintro ⟨mask,hmask⟩
    obtain ⟨a,ha,hmask⟩ := bind_eq_ok_iff.mp hmask
    obtain ⟨b,hb,-⟩ := map_eq_ok_iff.mp hmask
    exact ⟨⟨a,ha⟩,b,hb⟩
  · rintro ⟨⟨a,ha⟩,b,hb⟩
    exact ⟨andMasks a b,bind_eq_ok_iff.mpr ⟨a,ha,map_eq_ok_iff.mpr ⟨b,hb,rfl⟩⟩⟩

theorem getElem?_andMasks {a b : Mask} {row : ℕ} : (andMasks a b)[row]? = some (some true) ↔
    a[row]? = some (some true) ∧ b[row]? = some (some true) := by
  rw [andMasks,List.getElem?_zipWith]
  cases a[row]? with
  | none => simp
  | some x =>
    cases b[row]? with
    | none => simp
    | some y => simpa using andKleene_eq_true

theorem passes_and {left right : Expr} {row : ℕ} :
    Passes kernels batch (.and left right) row ↔ Passes kernels batch left row ∧ Passes kernels batch right row := by
  constructor
  · rintro ⟨mask,hmask,hrow⟩
    obtain ⟨a,ha,hmask⟩ := bind_eq_ok_iff.mp hmask
    obtain ⟨b,hb,rfl⟩ := map_eq_ok_iff.mp hmask
    obtain ⟨hleft,hright⟩ := getElem?_andMasks.mp hrow
    exact ⟨⟨a,ha,hleft⟩,b,hb,hright⟩
  · rintro ⟨⟨a,ha,hleft⟩,b,hb,hright⟩
    exact ⟨andMasks a b,bind_eq_ok_iff.mpr ⟨a,ha,map_eq_ok_iff.mpr ⟨b,hb,rfl⟩⟩,getElem?_andMasks.mpr ⟨hleft,hright⟩⟩

section Conjunction
variable {P : Expr → Prop} (hand : ∀ left right, P (.and left right) ↔ P left ∧ P right)
include hand

theorem forall_conjuncts {expr : Expr} (h : expr.KeepsConjuncts) : P expr ↔ ∀ part ∈ expr.conjuncts, P part := by
  induction expr with
  | and left right ihl ihr => rw [hand,ihl h.1,ihr h.2,Expr.conjuncts,List.forall_mem_append]
  | comparison _ => exact (List.forall_mem_singleton (p := P)).symm
  | columnComparison _ _ _ => exact (List.forall_mem_singleton (p := P)).symm
  | like _ => exact (List.forall_mem_singleton (p := P)).symm
  | or _ _ _ _ => exact (List.forall_mem_singleton (p := P)).symm
  | boolean _ => exact h.elim
  | not _ _ => exact h.elim
  | inList _ _ _ _ => exact h.elim
  | isNull _ _ => exact h.elim

theorem foldl_and {first : Expr} {rest : List Expr} :
    P (rest.foldl .and first) ↔ P first ∧ ∀ part ∈ rest, P part := by
  induction rest generalizing first with
  | nil => exact (and_iff_left fun _ h => absurd h List.not_mem_nil).symm
  | cons part rest ih => rw [List.foldl_cons,ih,hand,List.forall_mem_cons,and_assoc]

end Conjunction

theorem filterBatch_some {expr : Expr} {rows : List ℕ} (h : filterBatch kernels batch (some expr) = .ok rows) :
    Defined kernels batch expr ∧ ∀ row, row ∈ rows ↔ row < batch.numRows ∧ Passes kernels batch expr row := by
  obtain ⟨mask,hmask,rfl⟩ := map_eq_ok_iff.mp h
  refine ⟨⟨mask,hmask⟩,fun row => ?_⟩
  rw [List.mem_filter,List.mem_range,decide_eq_true_iff,passes_iff_of_ok hmask]

theorem filterBatch_exprsToFilter {expr : Expr} {parts : List Expr} {rows : List ℕ}
    (h : filterBatch kernels batch (some expr) = .ok rows) (hdefined : ∀ part ∈ parts, Defined kernels batch part)
    (hpasses : ∀ row < batch.numRows, Passes kernels batch expr row ↔ ∀ part ∈ parts, Passes kernels batch part row) :
    filterBatch kernels batch (exprsToFilter parts) = .ok rows := by
  obtain ⟨mask,hmask,rfl⟩ := map_eq_ok_iff.mp h
  cases parts with
  | nil =>
    refine congrArg Except.ok (List.filter_eq_self.mpr fun row hrow => ?_).symm
    rw [decide_eq_true_iff,← passes_iff_of_ok hmask]
    exact (hpasses row (List.mem_range.mp hrow)).mpr fun part hpart => absurd hpart List.not_mem_nil
  | cons first rest =>
    rw [List.forall_mem_cons] at hdefined
    obtain ⟨mask',hmask'⟩ := (foldl_and fun _ _ => defined_and).mpr hdefined
    refine map_eq_ok_iff.mpr ⟨mask',hmask',List.filter_congr fun row hrow => decide_eq_decide.mpr ?_⟩
    rw [← passes_iff_of_ok hmask,← passes_iff_of_ok hmask',
      foldl_and (P := fun expr => Passes kernels batch expr row) fun _ _ => passes_and,hpasses row (List.mem_range.mp hrow),
      List.forall_mem_cons]

end Passes

end Dodam.Execution
