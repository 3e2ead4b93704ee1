import Dodam.Foundation.Machine

/-! # Ranges of a decimal and a date

The filter that the direct aggregates test their rows with.
-/
namespace Dodam.Execution
open Foundation

abbrev I32 := {x : ℤ // InSigned 32 x}
abbrev I64 := {x : ℤ // InSigned 64 x}

structure DecimalDateRangeFilter where
  decimalMin : Option ℤ := none
  decimalMax : Option ℤ := none
  dateMin : Option ℤ := none
  dateMax : Option ℤ := none
deriving DecidableEq

/-- The same bounds, with those of the decimal as 64-bit values. -/
abbrev DecimalDateI64RangeFilter := DecimalDateRangeFilter

namespace DecimalDateRangeFilter

/-- `matches` of both filters. -/
def matchesRow (filter : DecimalDateRangeFilter) (decimal date : ℤ) : Bool :=
  filter.decimalMin.all (decide <| · ≤ decimal) && filter.decimalMax.all (decide <| decimal ≤ ·) &&
    filter.dateMin.all (decide <| · ≤ date) && filter.dateMax.all (decide <| date ≤ ·)

def optionI128ToI64ForFilter : Option ℤ → Option (Option ℤ)
  | some value => if InSigned 64 value then some (some value) else none
  | none => some none

def rawI64Bounds (filter : DecimalDateRangeFilter) : Option DecimalDateI64RangeFilter :=
  (optionI128ToI64ForFilter filter.decimalMin).bind fun decimalMin =>
    (optionI128ToI64ForFilter filter.decimalMax).map fun decimalMax =>
      ⟨decimalMin,decimalMax,filter.dateMin,filter.dateMax⟩

def isDecimalOnly (filter : DecimalDateI64RangeFilter) : Bool := filter.dateMin.isNone && filter.dateMax.isNone

/-- One lane: greater than the bound below the minimum, less than the bound above the maximum. -/
def laneMatches (filter : DecimalDateI64RangeFilter) (decimal : ℤ) : Bool :=
  (filter.decimalMin.bind fun min => checkedSigned 64 (min - 1)).all (decide <| · < decimal) &&
    (filter.decimalMax.bind fun max => checkedSigned 64 (max + 1)).all (decide <| decimal < ·)

section Rows
variable {ρ : Type*} (filter : DecimalDateRangeFilter) (decimal date : ρ → ℤ)

def forEachDecimalOnlyMatchI64Avx2 : List ρ → List ρ
  | a :: b :: c :: d :: rows =>
    [a,b,c,d].filter (fun row => laneMatches filter (decimal row)) ++ forEachDecimalOnlyMatchI64Avx2 rows
  | rows => rows.filter fun row => filter.matchesRow (decimal row) 0

/-- None when the bounds on dates or the processor do not allow it. -/
def forEachDecimalOnlyMatchI64 (simd : Bool) (rows : List ρ) : Option (List ρ) :=
  if !filter.isDecimalOnly || !simd then none else some (forEachDecimalOnlyMatchI64Avx2 filter decimal rows)

/-- The rows that the loops over 64-bit decimals keep. -/
def matchingRawI64Rows (simd : Bool) (rows : List ρ) : List ρ :=
  match filter.rawI64Bounds with
  | none => rows.filter fun row => filter.matchesRow (decimal row) (date row)
  | some rawFilter => (forEachDecimalOnlyMatchI64 rawFilter decimal simd rows).getD
      (rows.filter fun row => rawFilter.matchesRow (decimal row) (date row))

end Rows

section Same
variable {ρ : Type*} {filter rawFilter : DecimalDateRangeFilter} {decimal date : ρ → ℤ}

theorem optionI128ToI64ForFilter_eq_some {bound raw : Option ℤ} (h : optionI128ToI64ForFilter bound = some raw) :
    raw = bound ∧ ∀ value ∈ bound, InSigned 64 value := by
  cases bound with
  | none =>
    cases h
    exact ⟨rfl,fun _ h => nomatch h⟩
  | some value =>
    rw [optionI128ToI64ForFilter] at h
    split_ifs at h with hvalue
    cases h
    refine ⟨rfl,fun v hv => ?_⟩
    cases hv
    exact hvalue

theorem rawI64Bounds_eq_some (h : filter.rawI64Bounds = some rawFilter) : rawFilter = filter ∧
    (∀ min ∈ filter.decimalMin, InSigned 64 min) ∧ ∀ max ∈ filter.decimalMax, InSigned 64 max := by
  obtain ⟨decimalMin,hmin,h⟩ := Option.bind_eq_some_iff.mp h
  obtain ⟨decimalMax,hmax,rfl⟩ := Option.map_eq_some_iff.mp h
  obtain ⟨rfl,hmins⟩ := optionI128ToI64ForFilter_eq_some hmin
  obtain ⟨rfl,hmaxs⟩ := optionI128ToI64ForFilter_eq_some hmax
  exact ⟨rfl,hmins,hmaxs⟩

/-- Without a bound on dates a lane is the test of the filter. -/
theorem laneMatches_eq (hmin : ∀ min ∈ filter.decimalMin, InSigned 64 min)
    (hmax : ∀ max ∈ filter.decimalMax, InSigned 64 max) (hdates : filter.isDecimalOnly = true) {value : ℤ}
    (hvalue : InSigned 64 value) (day : ℤ) : laneMatches filter value = filter.matchesRow value day := by
  obtain ⟨decimalMin,decimalMax,dateMin,dateMax⟩ := filter
  obtain ⟨hdateMin,hdateMax⟩ := Bool.and_eq_true_iff.mp hdates
  obtain rfl : dateMin = none := Option.isNone_iff_eq_none.mp hdateMin
  obtain rfl : dateMax = none := Option.isNone_iff_eq_none.mp hdateMax
  have hlow : (decimalMin.bind fun min => checkedSigned 64 (min - 1)).all (decide <| · < value) =
      decimalMin.all (decide <| · ≤ value) := by
    cases decimalMin with
    | none => rfl
    | some min =>
      have hrange := hmin min rfl
      unfold InSigned at hrange hvalue
      rw [Option.bind_some,checkedSigned]
      split_ifs with h
      · exact decide_eq_decide.mpr (by omega)
      · refine (decide_eq_true ?_).symm
        unfold InSigned at h
        omega
  have hhigh : (decimalMax.bind fun max => checkedSigned 64 (max + 1)).all (decide <| value < ·) =
      decimalMax.all (decide <| value ≤ ·) := by
    cases decimalMax with
    | none => rfl
    | some max =>
      have hrange := hmax max rfl
      unfold InSigned at hrange hvalue
      rw [Option.bind_some,checkedSigned]
      split_ifs with h
      · exact decide_eq_decide.mpr (by omega)
      · refine (decide_eq_true ?_).symm
        unfold InSigned at h
        omega
  rw [laneMatches,matchesRow,hlow,hhigh]
  exact (Bool.and_true _).symm.trans (Bool.and_true _).symm

theorem forEachDecimalOnlyMatchI64Avx2_eq (hmin : ∀ min ∈ filter.decimalMin, InSigned 64 min)
    (hmax : ∀ max ∈ filter.decimalMax, InSigned 64 max) (hdates : filter.isDecimalOnly = true) (rows : List ρ)
    (hrows : ∀ row ∈ rows, InSigned 64 (decimal row)) : forEachDecimalOnlyMatchI64Avx2 filter decimal rows =
      rows.filter fun row => filter.matchesRow (decimal row) (date row) := by
  have hlane : ∀ row ∈ rows, ∀ day, laneMatches filter (decimal row) = filter.matchesRow (decimal row) day :=
    fun row hrow => laneMatches_eq hmin hmax hdates (hrows row hrow)
  fun_induction forEachDecimalOnlyMatchI64Avx2 filter decimal rows with
  | case1 a b c d rows ih =>
    have hfour : [a,b,c,d].filter (fun row => laneMatches filter (decimal row)) =
        [a,b,c,d].filter fun row => filter.matchesRow (decimal row) (date row) :=
      List.filter_congr fun row hrow => hlane row (List.mem_append_left rows hrow) _
    rw [ih (fun row hrow => hrows row (List.mem_append_right [a,b,c,d] hrow))
      (fun row hrow => hlane row (List.mem_append_right [a,b,c,d] hrow)),hfour,← List.filter_append]
    rfl
  | case2 rows h =>
    refine List.filter_congr fun row hrow => ?_
    rw [← hlane row hrow (date row),hlane row hrow 0]

theorem matchingRawI64Rows_eq (simd : Bool) (rows : List ρ) (hrows : ∀ row ∈ rows, InSigned 64 (decimal row)) :
    matchingRawI64Rows filter decimal date simd rows =
      rows.filter fun row => filter.matchesRow (decimal row) (date row) := by
  unfold matchingRawI64Rows
  cases hraw : filter.rawI64Bounds with
  | none => rfl
  | some rawFilter =>
    obtain ⟨rfl,hmin,hmax⟩ := rawI64Bounds_eq_some hraw
    dsimp only
    unfold forEachDecimalOnlyMatchI64
    split_ifs with h
    · rfl
    · rw [Option.getD_some]
      refine forEachDecimalOnlyMatchI64Avx2_eq hmin hmax ?_ rows hrows
      rw [Bool.or_eq_true,not_or,Bool.not_eq_true',Bool.not_eq_false] at h
      exact h.1

end Same

end DecimalDateRangeFilter
end Dodam.Execution
