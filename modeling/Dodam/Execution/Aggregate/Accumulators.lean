import Dodam.Execution.Aggregate.Value
import Dodam.Foundation.Machine

/-! # Accumulators of integer sums

The states behind SUM over Int32 and Int64 columns: the numeric state of the
global and the generic aggregate, the fast states, and the groups of the
count/sum collectors. An addition is plain (it wraps) or saturating, as each
function of the source has it; `arrow::compute::sum` is a parameter.
-/
namespace Dodam.Execution
open Foundation

structure IntColumn where
  width : ℕ
  width_pos : 0 < width
  values : List (Option ℤ)
  inRange : ∀ value ∈ values, ∀ v ∈ value, InSigned width v

/-- `arrow::compute::sum` over the values of a width: none without a value, else it wraps. -/
structure SumKernel where
  sum : ℕ → List (Option ℤ) → Option ℤ
  none_iff : ∀ w values, sum w values = none ↔ ∀ v ∈ values, v = none
  wraps : ∀ w values s, sum w values = some s → s = wrapSigned w (Tally.values ↑values).sum

def wrappingKernel : SumKernel where
  sum w values :=
    if values.all Option.isNone then none else some (wrapSigned w (values.filterMap id).sum)
  none_iff w values := by
    split_ifs with h
    · refine iff_of_true rfl fun v hv => ?_
      exact Option.isNone_iff_eq_none.mp (List.all_eq_true.mp h v hv)
    · refine iff_of_false (by simp) fun hall => h (List.all_eq_true.mpr fun v hv => ?_)
      rw [hall v hv]
      rfl
  wraps w values s h := by
    split_ifs at h
    rw [← Option.some.inj h]
    rfl

/-- `NumericState` for integers: `output` tells whether a column has been seen. -/
structure NumericState where
  sumI64 : ℤ
  count : ℕ
  output : Bool
deriving DecidableEq

namespace NumericState

def default : NumericState := ⟨0,0,false⟩

def addI64 (state : NumericState) (value : ℤ) : NumericState :=
  ⟨wrapSigned 64 (state.sumI64 + value),wrapUnsigned 64 (state.count + 1),true⟩

/-- A whole column, summed by the kernel in the width of the column. -/
def update (kernel : SumKernel) (state : NumericState) (column : IntColumn) : NumericState :=
  ⟨match kernel.sum column.width column.values with
    | some value => wrapSigned 64 (state.sumI64 + value)
    | none => state.sumI64,
    wrapUnsigned 64 (state.count + (column.values.length - column.values.countP Option.isNone)),true⟩

def updateRow (state : NumericState) : Option ℤ → NumericState
  | some value => ⟨wrapSigned 64 (state.sumI64 + value),wrapUnsigned 64 (state.count + 1),true⟩
  | none => { state with output := true }

def merge (state other : NumericState) : NumericState :=
  ⟨if other.output then wrapSigned 64 (state.sumI64 + other.sumI64) else state.sumI64,
    wrapUnsigned 64 (state.count + other.count),state.output || other.output⟩

def sumValue (state : NumericState) : Option ℤ :=
  if state.output ∧ 0 < state.count then some state.sumI64 else none

end NumericState

/-- `FastAggregateState::SumInt`. -/
structure SumInt where
  sum : ℤ
  count : ℕ
deriving DecidableEq

namespace SumInt

def update (state : SumInt) : Option ℤ → SumInt
  | some value => ⟨wrapSigned 64 (state.sum + value),wrapUnsigned 64 (state.count + 1)⟩
  | none => state

def finish (state : SumInt) : Option ℤ := if 0 < state.count then some state.sum else none

end SumInt

/-- A count/sum group of one key. A NULL key is `none`. -/
structure CountSumGroup where
  key : Option ℤ
  tally : Tally
deriving DecidableEq

namespace CountSumGroup

def new (key : Option ℤ) : CountSumGroup := ⟨key,.zero⟩

def update (group : CountSumGroup) (value : Option ℤ) : CountSumGroup :=
  { group with tally := group.tally.addRow (wrapSigned 64) value }

def updateI64NonNull (group : CountSumGroup) (value : ℤ) : CountSumGroup :=
  { group with tally := group.tally.addRow (wrapSigned 64) (some value) }

def updateRawI64Optional (group : CountSumGroup) (value : Option ℤ) : CountSumGroup :=
  { group with tally := group.tally.addRow (saturateSigned 64) value }

def updateRawI64NonNull (group : CountSumGroup) (value : ℤ) : CountSumGroup :=
  { group with tally := group.tally.addRow (saturateSigned 64) (some value) }

def updateRawI64NonNullMany (group : CountSumGroup) (count : ℕ) (sum : ℤ) : CountSumGroup :=
  { group with tally := group.tally.addMany count sum count }

def mergeGroup (group other : CountSumGroup) : CountSumGroup :=
  { group with tally := group.tally.addMany other.tally.count other.tally.sum other.tally.sumCount }

def mergePartialValues (group : CountSumGroup) (count : ℕ) (sum : Option ℤ) : CountSumGroup :=
  { group with tally := group.tally.addPartial (saturateSigned 64) count sum }

end CountSumGroup

structure KeyedCountSumGroup where
  keys : List GroupValue
  tally : Tally
deriving DecidableEq

namespace KeyedCountSumGroup

def new (keys : List GroupValue) : KeyedCountSumGroup := ⟨keys,.zero⟩

def addRow (group : KeyedCountSumGroup) (value : Option ℤ) : KeyedCountSumGroup :=
  { group with tally := group.tally.addRow (wrapSigned 64) value }

end KeyedCountSumGroup

abbrev TwoKeyCountSumGroup := KeyedCountSumGroup

def TwoKeyCountSumGroup.update (group : TwoKeyCountSumGroup) (value : Option ℤ) : TwoKeyCountSumGroup :=
  KeyedCountSumGroup.addRow group value

def TwoKeyCountSumGroup.updateI64NonNull (group : TwoKeyCountSumGroup) (value : ℤ) :
    TwoKeyCountSumGroup :=
  KeyedCountSumGroup.addRow group (some value)

abbrev ThreeKeyCountSumGroup := KeyedCountSumGroup

def ThreeKeyCountSumGroup.update (group : ThreeKeyCountSumGroup) (value : Option ℤ) :
    ThreeKeyCountSumGroup :=
  KeyedCountSumGroup.addRow group value

structure CoalesceKeyCountSumGroup where
  first : Option ℤ
  second : Option ℤ
  thirdStringId : Option ℕ
  tally : Tally
deriving DecidableEq

namespace CoalesceKeyCountSumGroup

def new (first second : Option ℤ) (thirdStringId : Option ℕ) : CoalesceKeyCountSumGroup :=
  ⟨first,second,thirdStringId,.zero⟩

def update (group : CoalesceKeyCountSumGroup) (sum : Option ℤ) : CoalesceKeyCountSumGroup :=
  { group with tally := group.tally.addRow (wrapSigned 64) sum }

def updateNonNull (group : CoalesceKeyCountSumGroup) (sum : ℤ) : CoalesceKeyCountSumGroup :=
  { group with tally := group.tally.addRow (wrapSigned 64) (some sum) }

def mergeCounts (group : CoalesceKeyCountSumGroup) (count : ℕ) (sum : ℤ) (sumCount : ℕ) :
    CoalesceKeyCountSumGroup :=
  { group with tally := group.tally.addMany count sum sumCount }

end CoalesceKeyCountSumGroup

def minOption (current : Option ℤ) (value : ℤ) : Option ℤ := some (current.elim value (min · value))

def maxOption (current : Option ℤ) (value : ℤ) : Option ℤ := some (current.elim value (max · value))

/-- A count/sum/min/max group. The maximum is a date or a decimal, by the kind of the column. -/
structure SingleKeyCountSumMinMaxGroup where
  key : Option ℤ
  tally : Tally
  minDecimal : Option ℤ
  maxValue : Option ℤ
deriving DecidableEq

/-- The rows of a group in one batch, before they reach it. -/
structure SingleKeyCountSumMinMaxBatchPartial where
  count : ℕ
  sum : ℤ
  minDecimal : ℤ
  maxValue : ℤ
deriving DecidableEq

namespace SingleKeyCountSumMinMaxBatchPartial

def default : SingleKeyCountSumMinMaxBatchPartial := ⟨0,0,0,0⟩

def update (part : SingleKeyCountSumMinMaxBatchPartial) (sum minValue maxValue : ℤ) :
    SingleKeyCountSumMinMaxBatchPartial :=
  ⟨wrapUnsigned 64 (part.count + 1),wrapSigned 64 (part.sum + sum),
    if part.count = 0 then minValue else min part.minDecimal minValue,
    if part.count = 0 then maxValue else max part.maxValue maxValue⟩

end SingleKeyCountSumMinMaxBatchPartial

namespace SingleKeyCountSumMinMaxGroup

def new (key : Option ℤ) : SingleKeyCountSumMinMaxGroup := ⟨key,.zero,none,none⟩

def update (group : SingleKeyCountSumMinMaxGroup) (sum minValue maxValue : Option ℤ) :
    SingleKeyCountSumMinMaxGroup :=
  { group with
    tally := group.tally.addRow (wrapSigned 64) sum
    minDecimal := minValue.elim group.minDecimal (minOption group.minDecimal)
    maxValue := maxValue.elim group.maxValue (maxOption group.maxValue) }

def updateRawNonNull (group : SingleKeyCountSumMinMaxGroup) (sum minValue maxValue : ℤ) :
    SingleKeyCountSumMinMaxGroup :=
  { group with
    tally := group.tally.addRow (wrapSigned 64) (some sum)
    minDecimal := minOption group.minDecimal minValue
    maxValue := maxOption group.maxValue maxValue }

def updateRawMany (group : SingleKeyCountSumMinMaxGroup) (count : ℕ) (sum minValue maxValue : ℤ) :
    SingleKeyCountSumMinMaxGroup :=
  { group with
    tally := group.tally.addMany count sum count
    minDecimal := minOption group.minDecimal minValue
    maxValue := maxOption group.maxValue maxValue }

def mergeGroup (group other : SingleKeyCountSumMinMaxGroup) : SingleKeyCountSumMinMaxGroup :=
  { group with
    tally := group.tally.addMany other.tally.count other.tally.sum other.tally.sumCount
    minDecimal := other.minDecimal.elim group.minDecimal (minOption group.minDecimal)
    maxValue := other.maxValue.elim group.maxValue (maxOption group.maxValue) }

def mergePartialValues (group : SingleKeyCountSumMinMaxGroup) (count : ℕ) (sum minValue maxValue : Option ℤ) :
    SingleKeyCountSumMinMaxGroup :=
  { group with
    tally := group.tally.addPartial (wrapSigned 64) count sum
    minDecimal := minValue.elim group.minDecimal (minOption group.minDecimal)
    maxValue := maxValue.elim group.maxValue (maxOption group.maxValue) }

end SingleKeyCountSumMinMaxGroup
end Dodam.Execution
