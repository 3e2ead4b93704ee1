import Mathlib.Data.Int.Interval
import Dodam.Optimizer.JoinInputs
import Dodam.Sql.MetadataPredicate

/-! # Transferring the filter of a semi-join

A pair of columns that is tested against the pairs of a filtered subquery on the same table is
replaced by the subquery's own filter.
-/
namespace Dodam.Sql
open Foundation Execution Optimizer

section Strip

def stripSemijoinPairRedundantNonNullFilter (leftColumn rightColumn : String) : Expr → Option Expr
  | .isNull column negated =>
    if negated ∧ (column = leftColumn ∨ column = rightColumn) then none else some (.isNull column negated)
  | .and left right =>
    match stripSemijoinPairRedundantNonNullFilter leftColumn rightColumn left,
        stripSemijoinPairRedundantNonNullFilter leftColumn rightColumn right with
    | some left,some right => some (.and left right)
    | some expr,none | none,some expr => some expr
    | none,none => none
  | expr => some expr

def semijoinPairNonRedundantPrefilter (filter : Option Expr) (leftColumn rightColumn : String) : Option Expr :=
  filter.bind (stripSemijoinPairRedundantNonNullFilter leftColumn rightColumn)

def exprContainsLike : Expr → Bool
  | .like _ => true
  | .not expr => exprContainsLike expr
  | .and left right | .or left right => exprContainsLike left || exprContainsLike right
  | .boolean _ | .comparison _ | .columnComparison _ _ _ | .inList _ _ _ _ | .isNull _ _ => false

end Strip

section Transfer
variable (statistics : String → Result (Option (List PrimitiveRowGroupMinMax)))

/-- By the least number, then the greatest, then the position in the file. -/
def rangeBefore (left right : PrimitiveRowGroupMinMax) : Prop :=
  left.min < right.min ∨ left.min = right.min ∧
    (left.max < right.max ∨ left.max = right.max ∧ left.rowGroup ≤ right.rowGroup)

instance (left right : PrimitiveRowGroupMinMax) : Decidable (rangeBefore left right) :=
  inferInstanceAs (Decidable (_ ∨ _ ∧ _))

/-- The numbers from the least to the greatest, where 128 bits hold the count. -/
def PrimitiveRowGroupMinMax.span (range : PrimitiveRowGroupMinMax) : Option ℤ :=
  (checkedSigned 128 (range.max - range.min)).bind fun value => checkedSigned 128 (value + 1)

/-- Every range is without NULLs, has as many rows as numbers, and starts after the one before. -/
def uniqueRanges : List PrimitiveRowGroupMinMax → Option ℤ → ℕ → Bool
  | [],_,totalRows => 0 < totalRows
  | range :: ranges,previousMax,totalRows =>
    if range.nullCount ≠ some 0 then false
    else if range.span ≠ some (range.rows : ℤ) then false
    else if previousMax.any fun max => range.min ≤ max then false
    else uniqueRanges ranges (some range.max) (min (totalRows + range.rows) (2 ^ 128 - 1))

def sameSourceTupleSemijoinUniqueColumn (column : String) : Result Bool :=
  (statistics column).map fun ranges =>
    match ranges with
    | none => false
    | some ranges => if ranges.isEmpty then false else uniqueRanges (ranges.insertionSort rangeBefore) none 0

def sameSourceTupleSemijoinHasUniqueColumn : List String → Result Bool
  | [] => .ok false
  | column :: columns => do
    if ← sameSourceTupleSemijoinUniqueColumn statistics column then return true
    sameSourceTupleSemijoinHasUniqueColumn columns

def keyOnlyPredicate (keyColumns : List String) (filter : Expr) : Bool :=
  (exprReferencedColumns filter).all (· ∈ keyColumns)

def transferredFilter (outerFilter : Option Expr) (innerFilter : Expr) : Expr :=
  match outerFilter with
  | some outerFilter => .and outerFilter innerFilter
  | none => innerFilter

def sameSourceTupleSemijoinTransferredFilter (outerPath innerPath : String) (outerLeft outerRight innerLeft innerRight : String)
    (outerFilter innerFilter : Option Expr) : Result (Option Expr) :=
  if outerPath ≠ innerPath ∨ outerLeft ≠ innerLeft ∨ outerRight ≠ innerRight then .ok none
  else
    match innerFilter with
    | none => .ok none
    | some innerFilter =>
      if keyOnlyPredicate [outerLeft,outerRight] innerFilter then
        if exprContainsLike innerFilter then .ok none else .ok (some (transferredFilter outerFilter innerFilter))
      else do
        if ← sameSourceTupleSemijoinHasUniqueColumn statistics [outerLeft,outerRight] then
          return some (transferredFilter outerFilter innerFilter)
        else return none

end Transfer
end Dodam.Sql

/-! ## When a transferred filter is sound

The filter keeps the rows whose pair the subquery has when no kept row has a NULL
in its pair, and when rows of one pair pass the subquery's filter together. A
filter on the pair alone sees to the second. Row groups with as many rows as
numbers do so only if every number between their bounds occurs.
-/
namespace Dodam.Sql
open Foundation Optimizer
open Execution hiding Passes

section Sound
variable {floats : Floats} {ρ : Type*} {M : Meaning floats ρ} {left right : String} {outerFilter : Option Expr}
  {innerFilter filter : Expr} {row other : CellRow M.Val} {table : List (CellRow M.Val)}

/-- The subquery over the table with the filter has the pair of the row. -/
def InPairs (M : Meaning floats ρ) (table : List (CellRow M.Val)) (left right : String) (filter : Expr) (row : CellRow M.Val) :
    Prop :=
  ∃ pair, rowKey [left,right] row = some pair ∧
    ∃ other ∈ table, Passes M (some filter) other ∧ rowKey [left,right] other = some pair

theorem passes_some {filter : Expr} : Passes M (some filter) row ↔ (cellMeaning M).filter row filter = some true := by
  simp [Optimizer.Passes]

theorem passes_transferredFilter : Passes M (some (transferredFilter outerFilter innerFilter)) row ↔
    Passes M outerFilter row ∧ Passes M (some innerFilter) row := by
  cases outerFilter with
  | none => exact (and_iff_right (by simp [Optimizer.Passes])).symm
  | some outerFilter =>
    rw [transferredFilter,passes_some,passes_some,passes_some,Meaning.filter,andKleene_eq_true]

theorem rowKey_pair {pair : List M.Val} : rowKey [left,right] row = some pair ↔
    ∃ v w, row left = some v ∧ row right = some w ∧ pair = [v,w] := by
  unfold rowKey
  cases hleft : row left <;> cases hright : row right <;> simp [hleft,hright,eq_comm]

theorem passes_of_same_pair {pair : List M.Val} (hkeys : keyOnlyPredicate [left,right] filter = true)
    (hrow : rowKey [left,right] row = some pair) (hother : rowKey [left,right] other = some pair)
    (h : Passes M (some filter) other) : Passes M (some filter) row := by
  obtain ⟨v,w,hv,hw,rfl⟩ := rowKey_pair.mp hrow
  obtain ⟨v',w',hv',hw',hpair⟩ := rowKey_pair.mp hother
  cases hpair
  rw [passes_some] at h ⊢
  rw [← h]
  refine filter_congr_columns M fun column hcolumn => ?_
  have hkey : column = left ∨ column = right := by
    have hkey := List.all_eq_true.mp hkeys column hcolumn
    simpa using hkey
  rcases hkey with rfl | rfl
  · rw [hv,hv']
  · rw [hw,hw']

/-- Rows that pass both filters have a pair; and, unless the subquery's filter reads the pair alone, a row that passes
the outer filter passes it together with the rows of its pair. -/
structure TransferSound (M : Meaning floats ρ) (table : List (CellRow M.Val)) (left right : String)
    (outerFilter : Option Expr) (innerFilter : Expr) : Prop where
  nonnull : ∀ row ∈ table, Passes M outerFilter row → Passes M (some innerFilter) row →
    ∃ pair, rowKey [left,right] row = some pair
  together : keyOnlyPredicate [left,right] innerFilter = false → ∀ row ∈ table, Passes M outerFilter row →
    ∀ other ∈ table, Passes M (some innerFilter) other → ∀ pair, rowKey [left,right] row = some pair →
      rowKey [left,right] other = some pair → Passes M (some innerFilter) row

variable {statistics : String → Result (Option (List PrimitiveRowGroupMinMax))}
  {outerPath innerPath outerLeft outerRight innerLeft innerRight : String} {innerFilterOption : Option Expr}

theorem sameSourceTupleSemijoinTransferredFilter_some (h : sameSourceTupleSemijoinTransferredFilter statistics outerPath
      innerPath outerLeft outerRight innerLeft innerRight outerFilter innerFilterOption = .ok (some filter)) :
    outerPath = innerPath ∧ outerLeft = innerLeft ∧ outerRight = innerRight ∧
      ∃ innerFilter, innerFilterOption = some innerFilter ∧ filter = transferredFilter outerFilter innerFilter ∧
        (keyOnlyPredicate [outerLeft,outerRight] innerFilter = true ∨
          sameSourceTupleSemijoinHasUniqueColumn statistics [outerLeft,outerRight] = .ok true) := by
  unfold sameSourceTupleSemijoinTransferredFilter at h
  split_ifs at h with hsame
  · cases h
  · push Not at hsame
    refine ⟨hsame.1,hsame.2.1,hsame.2.2,?_⟩
    cases innerFilterOption with
    | none => cases h
    | some innerFilter =>
      dsimp only at h
      split_ifs at h with hkeys hlike
      · cases h
      · cases h
        exact ⟨innerFilter,rfl,rfl,Or.inl hkeys⟩
      · obtain ⟨unique,hunique,h⟩ := bind_eq_ok_iff.mp h
        cases unique with
        | false => cases h
        | true =>
          cases h
          exact ⟨innerFilter,rfl,rfl,Or.inr hunique⟩

end Sound

section Strip
variable {floats : Floats} {ρ : Type*} {M : Meaning floats ρ} {left right : String} {row : CellRow M.Val}

theorem passes_stripped {pair : List M.Val} (hpair : rowKey [left,right] row = some pair) {filter : Expr} :
    Passes M (stripSemijoinPairRedundantNonNullFilter left right filter) row ↔ Passes M (some filter) row := by
  obtain ⟨v,w,hv,hw,-⟩ := rowKey_pair.mp hpair
  induction filter with
  | isNull column negated =>
    unfold stripSemijoinPairRedundantNonNullFilter
    split_ifs with hkey
    · have hsome : (row column).isNone = false := by
        rcases hkey.2 with rfl | rfl
        · rw [hv]
          rfl
        · rw [hw]
          rfl
      refine iff_of_true (by simp [Optimizer.Passes]) ?_
      rw [passes_some]
      change some ((row column).isNone != negated) = some true
      rw [hsome,hkey.1]
      rfl
    · exact Iff.rfl
  | and a b iha ihb =>
    have hand : Passes M (some (.and a b)) row ↔ Passes M (some a) row ∧ Passes M (some b) row := by
      rw [passes_some,passes_some,passes_some,Meaning.filter,andKleene_eq_true]
    rw [hand,← iha,← ihb,stripSemijoinPairRedundantNonNullFilter]
    cases stripSemijoinPairRedundantNonNullFilter left right a <;>
      cases stripSemijoinPairRedundantNonNullFilter left right b <;>
      simp [Optimizer.Passes,Meaning.filter,andKleene_eq_true]
  | boolean | comparison | columnComparison | inList | like | not | or => exact Iff.rfl

theorem passes_nonRedundantPrefilter {pair : List M.Val} (hpair : rowKey [left,right] row = some pair) {filter : Option Expr} :
    Passes M (semijoinPairNonRedundantPrefilter filter left right) row ↔ Passes M filter row := by
  cases filter with
  | none => exact Iff.rfl
  | some filter => exact passes_stripped hpair

end Strip

section Dense

/-- The numbers of a row group that the statistics are of; none stands for a NULL. -/
structure PrimitiveRowGroupMinMax.Counts (range : PrimitiveRowGroupMinMax) (values : List (Option ℤ)) : Prop where
  rows_eq : range.rows = values.length
  nulls_eq : ∀ count, range.nullCount = some count → values.count none = count
  bounds : ∀ v, some v ∈ values → range.min ≤ v ∧ v ≤ range.max

variable {statistics : String → Result (Option (List PrimitiveRowGroupMinMax))} {column : String}
  {groups : List (PrimitiveRowGroupMinMax × List (Option ℤ))}

variable {floats : Floats} {ρ : Type*} {M : Meaning floats ρ} {left right : String} {outerFilter : Option Expr}
  {innerFilter : Expr} {table : List (CellRow M.Val)}

end Dense

section Examples

/-- A row of the columns `k`, `g` and `v`. -/
def pairRow (k v : Int64) : CellRow Optimizer.rowMeaning.Val := fun column =>
  if column = "k" then some (LiteralValue.int64 k)
  else if column = "g" then some (LiteralValue.int64 7)
  else if column = "v" then some (LiteralValue.int64 v) else none

theorem passes_nonRedundantPrefilter_pair :
    Optimizer.Passes Optimizer.rowMeaning
      (semijoinPairNonRedundantPrefilter (some (.and (.isNull "k" true) (.comparison ⟨"v",.eq,.int64 1⟩))) "k" "g") (pairRow 1 1) :=
  (passes_nonRedundantPrefilter (show rowKey ["k","g"] (pairRow 1 1) = some [LiteralValue.int64 1,LiteralValue.int64 7] from rfl)).mpr
    (by decide)

/-- Three rows with a number from one to three in `k`. -/
def threeRows : PrimitiveRowGroupMinMax := ⟨0,3,some 0,1,3,.int64⟩

end Examples
end Dodam.Sql
