import Dodam.Execution.Aggregate.Accumulators

/-! # Sums of any plan

A plan sums a column by steps of accumulators: batches or rows, merges of partial states,
additions of finished partial results.
-/
namespace Dodam.Execution
open Foundation Tally

inductive SumAccumulator
  | numeric (state : NumericState)
  | sumInt (state : SumInt)
  | countSum (group : CountSumGroup)
  | twoKey (group : TwoKeyCountSumGroup)
  | threeKey (group : ThreeKeyCountSumGroup)
  | coalesce (group : CoalesceKeyCountSumGroup)
  | minMax (group : SingleKeyCountSumMinMaxGroup)
  | batchPartial (part : SingleKeyCountSumMinMaxBatchPartial)
  | scratch (count : ℕ) (sum : ℤ)

namespace SumAccumulator

def total : SumAccumulator → ℤ
  | numeric state => state.sumI64
  | sumInt state => state.sum
  | countSum group => group.tally.sum
  | twoKey group => group.tally.sum
  | threeKey group => group.tally.sum
  | coalesce group => group.tally.sum
  | minMax group => group.tally.sum
  | batchPartial part => part.sum
  | scratch _ sum => sum

def number : SumAccumulator → ℕ
  | numeric state => state.count
  | sumInt state => state.count
  | countSum group => group.tally.sumCount
  | twoKey group => group.tally.sumCount
  | threeKey group => group.tally.sumCount
  | coalesce group => group.tally.sumCount
  | minMax group => group.tally.sumCount
  | batchPartial part => part.count
  | scratch count _ => count

def result : SumAccumulator → Option ℤ
  | numeric state => state.sumValue
  | sumInt state => state.finish
  | countSum group => group.tally.result
  | twoKey group => group.tally.result
  | threeKey group => group.tally.result
  | coalesce group => group.tally.result
  | minMax group => group.tally.result
  | batchPartial part => if part.count = 0 then none else some part.sum
  | scratch count sum => if count = 0 then none else some sum

end SumAccumulator

def exactSum (rows : Multiset (Option ℤ)) : ℤ := (values rows).sum

/-- SQL: NULL when no row has a value, the sum of the values otherwise. -/
def sqlSum (rows : Multiset (Option ℤ)) : Option ℤ :=
  if values rows = 0 then none else some (exactSum rows)

def SumFits (rows : Multiset (Option ℤ)) : Prop := InSigned 64 (exactSum rows)

/-- The accumulators that some steps reach from some rows, with the exact sum in range after each step. -/
inductive SumRun (kernel : SumKernel) : Multiset (Option ℤ) → SumAccumulator → Prop
  | numericNew : SumRun kernel 0 (.numeric .default)
  | numericUpdate {rows : Multiset (Option ℤ)} {state : NumericState} (h : SumRun kernel rows (.numeric state))
      (column : IntColumn) (hbatch : InSigned column.width (exactSum column.values))
      (hfit : SumFits (rows + column.values)) :
      SumRun kernel (rows + column.values) (.numeric (state.update kernel column))
  | numericUpdateRow {rows : Multiset (Option ℤ)} {state : NumericState}
      (h : SumRun kernel rows (.numeric state)) (value : Option ℤ) (hfit : SumFits (rows + {value})) :
      SumRun kernel (rows + {value}) (.numeric (state.updateRow value))
  | numericAddI64 {rows : Multiset (Option ℤ)} {state : NumericState}
      (h : SumRun kernel rows (.numeric state)) (value : ℤ) (hfit : SumFits (rows + {some value})) :
      SumRun kernel (rows + {some value}) (.numeric (state.addI64 value))
  | numericMerge {rows others : Multiset (Option ℤ)} {state other : NumericState}
      (h : SumRun kernel rows (.numeric state)) (ho : SumRun kernel others (.numeric other))
      (hfit : SumFits (rows + others)) : SumRun kernel (rows + others) (.numeric (state.merge other))
  | sumIntNew : SumRun kernel 0 (.sumInt ⟨0,0⟩)
  | sumIntUpdate {rows : Multiset (Option ℤ)} {state : SumInt} (h : SumRun kernel rows (.sumInt state))
      (value : Option ℤ) (hfit : SumFits (rows + {value})) :
      SumRun kernel (rows + {value}) (.sumInt (state.update value))
  | countSumNew (key : Option ℤ) : SumRun kernel 0 (.countSum (.new key))
  | countSumUpdate {rows : Multiset (Option ℤ)} {group : CountSumGroup}
      (h : SumRun kernel rows (.countSum group)) (value : Option ℤ) (hfit : SumFits (rows + {value})) :
      SumRun kernel (rows + {value}) (.countSum (group.update value))
  | countSumUpdateI64NonNull {rows : Multiset (Option ℤ)} {group : CountSumGroup}
      (h : SumRun kernel rows (.countSum group)) (value : ℤ) (hfit : SumFits (rows + {some value})) :
      SumRun kernel (rows + {some value}) (.countSum (group.updateI64NonNull value))
  | countSumUpdateRawI64Optional {rows : Multiset (Option ℤ)} {group : CountSumGroup}
      (h : SumRun kernel rows (.countSum group)) (value : Option ℤ) (hfit : SumFits (rows + {value})) :
      SumRun kernel (rows + {value}) (.countSum (group.updateRawI64Optional value))
  | countSumUpdateRawI64NonNull {rows : Multiset (Option ℤ)} {group : CountSumGroup}
      (h : SumRun kernel rows (.countSum group)) (value : ℤ) (hfit : SumFits (rows + {some value})) :
      SumRun kernel (rows + {some value}) (.countSum (group.updateRawI64NonNull value))
  | countSumUpdateRawI64NonNullMany {rows others : Multiset (Option ℤ)} {group : CountSumGroup} {count : ℕ}
      {sum : ℤ} (h : SumRun kernel rows (.countSum group)) (ho : SumRun kernel others (.scratch count sum))
      (hfit : SumFits (rows + others)) :
      SumRun kernel (rows + others) (.countSum (group.updateRawI64NonNullMany count sum))
  | countSumMergeGroup {rows others : Multiset (Option ℤ)} {group other : CountSumGroup}
      (h : SumRun kernel rows (.countSum group)) (ho : SumRun kernel others (.countSum other))
      (hfit : SumFits (rows + others)) :
      SumRun kernel (rows + others) (.countSum (group.mergeGroup other))
  | countSumMergePartialValues {rows others : Multiset (Option ℤ)} {group : CountSumGroup}
      {other : SumAccumulator} (h : SumRun kernel rows (.countSum group)) (ho : SumRun kernel others other)
      (count : ℕ) (hfit : SumFits (rows + others)) :
      SumRun kernel (rows + others) (.countSum (group.mergePartialValues count other.result))
  | twoKeyNew (keys : List GroupValue) : SumRun kernel 0 (.twoKey (.new keys))
  | twoKeyUpdate {rows : Multiset (Option ℤ)} {group : TwoKeyCountSumGroup}
      (h : SumRun kernel rows (.twoKey group)) (value : Option ℤ) (hfit : SumFits (rows + {value})) :
      SumRun kernel (rows + {value}) (.twoKey (TwoKeyCountSumGroup.update group value))
  | twoKeyUpdateI64NonNull {rows : Multiset (Option ℤ)} {group : TwoKeyCountSumGroup}
      (h : SumRun kernel rows (.twoKey group)) (value : ℤ) (hfit : SumFits (rows + {some value})) :
      SumRun kernel (rows + {some value}) (.twoKey (TwoKeyCountSumGroup.updateI64NonNull group value))
  | threeKeyNew (keys : List GroupValue) : SumRun kernel 0 (.threeKey (.new keys))
  | threeKeyUpdate {rows : Multiset (Option ℤ)} {group : ThreeKeyCountSumGroup}
      (h : SumRun kernel rows (.threeKey group)) (value : Option ℤ) (hfit : SumFits (rows + {value})) :
      SumRun kernel (rows + {value}) (.threeKey (ThreeKeyCountSumGroup.update group value))
  | coalesceNew (first second : Option ℤ) (third : Option ℕ) :
      SumRun kernel 0 (.coalesce (.new first second third))
  | coalesceUpdate {rows : Multiset (Option ℤ)} {group : CoalesceKeyCountSumGroup}
      (h : SumRun kernel rows (.coalesce group)) (value : Option ℤ) (hfit : SumFits (rows + {value})) :
      SumRun kernel (rows + {value}) (.coalesce (group.update value))
  | coalesceUpdateNonNull {rows : Multiset (Option ℤ)} {group : CoalesceKeyCountSumGroup}
      (h : SumRun kernel rows (.coalesce group)) (value : ℤ) (hfit : SumFits (rows + {some value})) :
      SumRun kernel (rows + {some value}) (.coalesce (group.updateNonNull value))
  | coalesceMergeScratch {rows others : Multiset (Option ℤ)} {group : CoalesceKeyCountSumGroup} {count : ℕ}
      {sum : ℤ} (h : SumRun kernel rows (.coalesce group)) (ho : SumRun kernel others (.scratch count sum))
      (hfit : SumFits (rows + others)) :
      SumRun kernel (rows + others) (.coalesce (group.mergeCounts count sum count))
  | coalesceMergeCounts {rows others : Multiset (Option ℤ)} {group other : CoalesceKeyCountSumGroup}
      (h : SumRun kernel rows (.coalesce group)) (ho : SumRun kernel others (.coalesce other))
      (hfit : SumFits (rows + others)) :
      SumRun kernel (rows + others)
        (.coalesce (group.mergeCounts other.tally.count other.tally.sum other.tally.sumCount))
  | minMaxNew (key : Option ℤ) : SumRun kernel 0 (.minMax (.new key))
  | minMaxUpdate {rows : Multiset (Option ℤ)} {group : SingleKeyCountSumMinMaxGroup}
      (h : SumRun kernel rows (.minMax group)) (value minValue maxValue : Option ℤ)
      (hfit : SumFits (rows + {value})) :
      SumRun kernel (rows + {value}) (.minMax (group.update value minValue maxValue))
  | minMaxUpdateRawNonNull {rows : Multiset (Option ℤ)} {group : SingleKeyCountSumMinMaxGroup}
      (h : SumRun kernel rows (.minMax group)) (value minValue maxValue : ℤ)
      (hfit : SumFits (rows + {some value})) :
      SumRun kernel (rows + {some value}) (.minMax (group.updateRawNonNull value minValue maxValue))
  | minMaxUpdateRawMany {rows others : Multiset (Option ℤ)} {group : SingleKeyCountSumMinMaxGroup} {count : ℕ}
      {sum : ℤ} (h : SumRun kernel rows (.minMax group)) (ho : SumRun kernel others (.scratch count sum))
      (minValue maxValue : ℤ) (hfit : SumFits (rows + others)) :
      SumRun kernel (rows + others) (.minMax (group.updateRawMany count sum minValue maxValue))
  | minMaxUpdatePartial {rows others : Multiset (Option ℤ)} {group : SingleKeyCountSumMinMaxGroup}
      {part : SingleKeyCountSumMinMaxBatchPartial} (h : SumRun kernel rows (.minMax group))
      (ho : SumRun kernel others (.batchPartial part)) (hfit : SumFits (rows + others)) :
      SumRun kernel (rows + others)
        (.minMax (group.updateRawMany part.count part.sum part.minDecimal part.maxValue))
  | minMaxMergeGroup {rows others : Multiset (Option ℤ)} {group other : SingleKeyCountSumMinMaxGroup}
      (h : SumRun kernel rows (.minMax group)) (ho : SumRun kernel others (.minMax other))
      (hfit : SumFits (rows + others)) : SumRun kernel (rows + others) (.minMax (group.mergeGroup other))
  | minMaxMergePartialValues {rows others : Multiset (Option ℤ)} {group : SingleKeyCountSumMinMaxGroup}
      {other : SumAccumulator} (h : SumRun kernel rows (.minMax group)) (ho : SumRun kernel others other)
      (count : ℕ) (minValue maxValue : Option ℤ) (hfit : SumFits (rows + others)) :
      SumRun kernel (rows + others)
        (.minMax (group.mergePartialValues count other.result minValue maxValue))
  | batchPartialNew : SumRun kernel 0 (.batchPartial .default)
  | batchPartialUpdate {rows : Multiset (Option ℤ)} {part : SingleKeyCountSumMinMaxBatchPartial}
      (h : SumRun kernel rows (.batchPartial part)) (value minValue maxValue : ℤ)
      (hfit : SumFits (rows + {some value})) :
      SumRun kernel (rows + {some value}) (.batchPartial (part.update value minValue maxValue))
  | scratchNew : SumRun kernel 0 (.scratch 0 0)
  | scratchAdd {rows : Multiset (Option ℤ)} {count : ℕ} {sum : ℤ} (h : SumRun kernel rows (.scratch count sum))
      (value : ℤ) {width : ℕ} (hwidth : 0 < width) (hfit : SumFits (rows + {some value})) :
      SumRun kernel (rows + {some value})
        (.scratch (saturateUnsigned width (count + 1)) (saturateSigned 64 (sum + value)))

section Holds

/-- The total is the sum of the rows, and the number is zero only when there is nothing to sum. -/
def SumHolds (rows : Multiset (Option ℤ)) (total : ℤ) (number : ℕ) : Prop :=
  InUnsigned 64 rows.card → number ≤ (values rows).card ∧ (number = 0 → values rows = 0) ∧
    total = exactSum rows

variable {rows others : Multiset (Option ℤ)} {a b : ℤ} {n m : ℕ} {round : ℤ → ℤ}

theorem exactSum_add (r s : Multiset (Option ℤ)) : exactSum (r + s) = exactSum r + exactSum s := by
  rw [exactSum,values_add,Multiset.sum_add]
  rfl

theorem exactSum_singleton (v : ℤ) : exactSum {some v} = v := Multiset.sum_singleton v

theorem inUnsigned_of_add (h : InUnsigned 64 (rows + others).card) :
    InUnsigned 64 rows.card ∧ InUnsigned 64 others.card := by
  unfold InUnsigned at h ⊢
  rw [Multiset.card_add] at h
  omega

theorem sumHolds_zero : SumHolds 0 0 0 := fun _ => ⟨le_rfl,fun _ => rfl,rfl⟩

theorem sumHolds_value (v : ℤ) : SumHolds {some v} v 1 :=
  fun _ => ⟨le_rfl,fun h => absurd h one_ne_zero,(exactSum_singleton v).symm⟩

theorem SumHolds.addNone (h : SumHolds rows a n) (hnone : values others = 0) :
    SumHolds (rows + others) a n := by
  intro hcard
  have hvalues : values (rows + others) = values rows := by
    rw [values_add,hnone,add_zero]
  unfold exactSum
  rw [hvalues]
  exact h (inUnsigned_of_add hcard).1

theorem SumHolds.add (hround : Rounds 64 round) (h : SumHolds rows a n) (ho : SumHolds others b m)
    (hfit : SumFits (rows + others)) {k : ℕ}
    (hk : InUnsigned 64 (n + m) → k ≤ n + m ∧ (k = 0 → n = 0 ∧ m = 0)) :
    SumHolds (rows + others) (round (a + b)) k := by
  intro hcard
  obtain ⟨hr,hs⟩ := inUnsigned_of_add hcard
  obtain ⟨hle,hzero,hsum⟩ := h hr
  obtain ⟨hle',hzero',hsum'⟩ := ho hs
  have hcount := card_values_le rows
  have hcount' := card_values_le others
  obtain ⟨hkle,hkzero⟩ := hk (by
    unfold InUnsigned at hcard ⊢
    rw [Multiset.card_add] at hcard
    omega)
  refine ⟨?_,fun hz => ?_,?_⟩
  · rw [values_add,Multiset.card_add]
    omega
  · rw [values_add,hzero (hkzero hz).1,hzero' (hkzero hz).2,add_zero]
  · rw [hsum,hsum',← exactSum_add]
    exact hround _ hfit

theorem wrapUnsigned_number (n m : ℕ) (h : InUnsigned 64 (n + m)) :
    wrapUnsigned 64 (n + m) ≤ n + m ∧ (wrapUnsigned 64 (n + m) = 0 → n = 0 ∧ m = 0) := by
  rw [rounds_wrapUnsigned 64 _ h]
  omega

theorem saturateUnsigned_number {w : ℕ} (hw : 0 < w) (n m : ℕ) :
    saturateUnsigned w (n + m) ≤ n + m ∧ (saturateUnsigned w (n + m) = 0 → n = 0 ∧ m = 0) := by
  have hpow : 2 ≤ 2 ^ w := Nat.le_self_pow hw.ne' 2
  unfold saturateUnsigned maxUnsigned
  omega

theorem SumHolds.addRow (hround : Rounds 64 round) {t : Tally} (h : SumHolds rows t.sum t.sumCount)
    {value : Option ℤ} (hfit : SumFits (rows + {value})) :
    SumHolds (rows + {value}) (t.addRow round value).sum (t.addRow round value).sumCount := by
  cases value with
  | none => exact h.addNone rfl
  | some v => exact h.add hround (sumHolds_value v) hfit (wrapUnsigned_number _ _)

theorem SumHolds.addMany {t : Tally} (h : SumHolds rows t.sum t.sumCount) (ho : SumHolds others b m)
    (hfit : SumFits (rows + others)) (count : ℕ) :
    SumHolds (rows + others) (t.addMany count b m).sum (t.addMany count b m).sumCount :=
  h.add (rounds_saturate 64) ho hfit fun _ => saturateUnsigned_number (by decide) _ _

theorem SumHolds.addPartial (hround : Rounds 64 round) {t : Tally} (h : SumHolds rows t.sum t.sumCount)
    (ho : SumHolds others b m) (hfit : SumFits (rows + others)) (count : ℕ) :
    SumHolds (rows + others) (t.addPartial round count (if m = 0 then none else some b)).sum
      (t.addPartial round count (if m = 0 then none else some b)).sumCount := by
  split_ifs with hm
  · intro hcard
    obtain ⟨-,hzero,-⟩ := ho (inUnsigned_of_add hcard).2
    exact h.addNone (hzero hm) hcard
  · have hone : SumHolds others b 1 := by
      intro hcard
      obtain ⟨hle,-,hsum⟩ := ho hcard
      exact ⟨(Nat.one_le_iff_ne_zero.mpr hm).trans hle,fun h => absurd h one_ne_zero,hsum⟩
    exact h.add hround hone hfit (wrapUnsigned_number _ _)

end Holds

section Numeric
variable {rows others : Multiset (Option ℤ)}

theorem card_values_coe (values : List (Option ℤ)) :
    (Tally.values ↑values).card = values.length - values.countP Option.isNone := by
  change (values.filterMap id).length = _
  induction values with
  | nil => rfl
  | cons v values ih =>
    have hle : values.countP Option.isNone ≤ values.length := List.countP_le_length
    cases v with
    | none => simpa using ih
    | some v =>
      have hcons : (some v :: values).filterMap id = v :: values.filterMap id := rfl
      rw [hcons,List.length_cons,ih,List.length_cons,List.countP_cons_of_neg Bool.false_ne_true]
      omega

def NumericHolds (rows : Multiset (Option ℤ)) (state : NumericState) : Prop :=
  SumHolds rows state.sumI64 state.count ∧ (0 < state.count → state.output = true)

variable {state : NumericState}

theorem NumericHolds.update {kernel : SumKernel} (h : NumericHolds rows state)
    {column : IntColumn} (hbatch : InSigned column.width (exactSum column.values))
    (hwidth : 0 < column.width) (hfit : SumFits (rows + column.values)) :
    NumericHolds (rows + column.values) (state.update kernel column) := by
  refine ⟨?_,fun _ => rfl⟩
  have hcount := card_values_coe column.values
  unfold NumericState.update
  cases hsum : kernel.sum column.width column.values with
  | none =>
    have hnone : values ↑column.values = 0 := by
      refine Multiset.eq_zero_of_forall_notMem fun v hv => ?_
      obtain ⟨w,hw,hwv⟩ := (Multiset.mem_filterMap _ _).mp hv
      rw [(kernel.none_iff _ _).mp hsum w (Multiset.mem_coe.mp hw)] at hwv
      cases hwv
    intro hcard
    obtain ⟨hle,hzero,hexact⟩ := h.1.addNone hnone hcard
    have hbound := card_values_le (rows + ↑column.values)
    rw [hnone,Multiset.card_zero] at hcount
    rw [← hcount,add_zero,rounds_wrapUnsigned 64 _ (by unfold InUnsigned at hcard ⊢; omega)]
    exact ⟨hle,hzero,hexact⟩
  | some value =>
    have hvalue : value = exactSum column.values := by
      rw [kernel.wraps _ _ _ hsum]
      exact wrapSigned_of_mem hwidth hbatch
    have hcolumn : SumHolds ↑column.values value
        (column.values.length - column.values.countP Option.isNone) := by
      refine fun _ => ⟨hcount.ge,fun hz => ?_,hvalue⟩
      rw [← Multiset.card_eq_zero,hcount,hz]
    exact h.1.add (rounds_wrap (by decide)) hcolumn hfit (wrapUnsigned_number _ _)

theorem NumericHolds.merge {other : NumericState} (h : NumericHolds rows state)
    (ho : NumericHolds others other) (hfit : SumFits (rows + others)) :
    NumericHolds (rows + others) (state.merge other) := by
  unfold NumericState.merge
  cases hout : other.output with
  | false =>
    have hcount : other.count = 0 := by
      by_contra hne
      rw [ho.2 (Nat.pos_of_ne_zero hne)] at hout
      cases hout
    refine ⟨fun hcard => ?_,fun hpos => ?_⟩
    · obtain ⟨-,hzero,-⟩ := ho.1 (inUnsigned_of_add hcard).2
      obtain ⟨hle,hzero',hexact⟩ := h.1.addNone (hzero hcount) hcard
      have hbound := card_values_le (rows + others)
      rw [hcount,add_zero,rounds_wrapUnsigned 64 _ (by unfold InUnsigned at hcard ⊢; omega)]
      exact ⟨hle,hzero',hexact⟩
    · rw [Bool.or_false]
      refine h.2 (Nat.pos_of_ne_zero fun hz => ?_)
      rw [hz,hcount] at hpos
      exact absurd hpos (Nat.lt_irrefl 0)
  | true =>
    rw [Bool.or_true]
    exact ⟨h.1.add (rounds_wrap (by decide)) ho.1 hfit (wrapUnsigned_number _ _),fun _ => rfl⟩

theorem NumericHolds.updateRow (h : NumericHolds rows state) {value : Option ℤ}
    (hfit : SumFits (rows + {value})) : NumericHolds (rows + {value}) (state.updateRow value) := by
  cases value with
  | none => exact ⟨h.1.addNone rfl,fun _ => rfl⟩
  | some v =>
    exact ⟨h.1.add (rounds_wrap (by decide)) (sumHolds_value v) hfit (wrapUnsigned_number _ _),
      fun _ => rfl⟩

theorem NumericHolds.sumValue (h : NumericHolds rows state) :
    state.sumValue = if state.count = 0 then none else some state.sumI64 := by
  unfold NumericState.sumValue
  by_cases hz : state.count = 0
  · rw [if_neg (by omega),if_pos hz]
  · rw [if_pos ⟨h.2 (Nat.pos_of_ne_zero hz),Nat.pos_of_ne_zero hz⟩,if_neg hz]

end Numeric

def SumAccumulator.Holds (rows : Multiset (Option ℤ)) : SumAccumulator → Prop
  | numeric state => NumericHolds rows state
  | acc => SumHolds rows acc.total acc.number

variable {acc : SumAccumulator}

theorem SumAccumulator.Holds.sum {rows : Multiset (Option ℤ)} (h : acc.Holds rows) :
    SumHolds rows acc.total acc.number := by
  cases acc with
  | numeric state => exact h.1
  | _ => exact h

theorem SumAccumulator.Holds.result {rows : Multiset (Option ℤ)}
    (h : acc.Holds rows) : acc.result = if acc.number = 0 then none else some acc.total := by
  cases acc with
  | numeric state => exact NumericHolds.sumValue h
  | sumInt state =>
    change (if 0 < state.count then some state.sum else none) =
      if state.count = 0 then none else some state.sum
    by_cases hz : state.count = 0
    · rw [if_neg (by omega),if_pos hz]
    · rw [if_pos (Nat.pos_of_ne_zero hz),if_neg hz]
  | _ => rfl

theorem SumRun.holds {kernel : SumKernel} {rows : Multiset (Option ℤ)}
    (h : SumRun kernel rows acc) : acc.Holds rows := by
  have hwrap : Rounds 64 (wrapSigned 64) := rounds_wrap (by decide)
  have hsat : Rounds 64 (saturateSigned 64) := rounds_saturate 64
  induction h with
  | numericNew => exact ⟨sumHolds_zero,fun h => absurd h (by decide)⟩
  | numericUpdate h column hbatch hfit ih => exact NumericHolds.update ih hbatch column.width_pos hfit
  | numericUpdateRow h value hfit ih => exact NumericHolds.updateRow ih hfit
  | numericAddI64 h value hfit ih => exact NumericHolds.updateRow ih hfit
  | numericMerge h ho hfit ih iho => exact NumericHolds.merge ih iho hfit
  | sumIntUpdate h value hfit ih =>
    cases value with
    | none => exact SumHolds.addNone ih rfl
    | some v => exact SumHolds.add hwrap ih (sumHolds_value v) hfit (wrapUnsigned_number _ _)
  | countSumUpdate h value hfit ih => exact SumHolds.addRow hwrap ih hfit
  | countSumUpdateI64NonNull h value hfit ih => exact SumHolds.addRow hwrap ih hfit
  | countSumUpdateRawI64Optional h value hfit ih => exact SumHolds.addRow hsat ih hfit
  | countSumUpdateRawI64NonNull h value hfit ih => exact SumHolds.addRow hsat ih hfit
  | countSumUpdateRawI64NonNullMany h ho hfit ih iho => exact SumHolds.addMany ih iho hfit _
  | countSumMergeGroup h ho hfit ih iho => exact SumHolds.addMany ih iho hfit _
  | countSumMergePartialValues h ho count hfit ih iho =>
    rw [iho.result]
    exact SumHolds.addPartial hsat ih iho.sum hfit count
  | twoKeyUpdate h value hfit ih => exact SumHolds.addRow hwrap ih hfit
  | twoKeyUpdateI64NonNull h value hfit ih => exact SumHolds.addRow hwrap ih hfit
  | threeKeyUpdate h value hfit ih => exact SumHolds.addRow hwrap ih hfit
  | coalesceUpdate h value hfit ih => exact SumHolds.addRow hwrap ih hfit
  | coalesceUpdateNonNull h value hfit ih => exact SumHolds.addRow hwrap ih hfit
  | coalesceMergeScratch h ho hfit ih iho => exact SumHolds.addMany ih iho hfit _
  | coalesceMergeCounts h ho hfit ih iho => exact SumHolds.addMany ih iho hfit _
  | minMaxUpdate h value minValue maxValue hfit ih => exact SumHolds.addRow hwrap ih hfit
  | minMaxUpdateRawNonNull h value minValue maxValue hfit ih => exact SumHolds.addRow hwrap ih hfit
  | minMaxUpdateRawMany h ho minValue maxValue hfit ih iho => exact SumHolds.addMany ih iho hfit _
  | minMaxUpdatePartial h ho hfit ih iho => exact SumHolds.addMany ih iho hfit _
  | minMaxMergeGroup h ho hfit ih iho => exact SumHolds.addMany ih iho hfit _
  | minMaxMergePartialValues h ho count minValue maxValue hfit ih iho =>
    rw [iho.result]
    exact SumHolds.addPartial hwrap ih iho.sum hfit count
  | batchPartialUpdate h value minValue maxValue hfit ih =>
    exact SumHolds.add hwrap ih (sumHolds_value value) hfit (wrapUnsigned_number _ _)
  | scratchAdd h value hwidth hfit ih =>
    exact SumHolds.add hsat ih (sumHolds_value value) hfit fun _ => saturateUnsigned_number hwidth _ _
  | _ => exact sumHolds_zero

/-- Whatever the batches, the paths and the order of the merges, the reported SUM is that of the rows,
when the exact sum behind each step is in range. -/
theorem sumRun_exact {kernel : SumKernel} {rows : Multiset (Option ℤ)} {acc : SumAccumulator}
    (h : SumRun kernel rows acc) (hcount : InUnsigned 64 rows.card) : acc.result = sqlSum rows := by
  obtain ⟨hle,hzero,hsum⟩ := h.holds.sum hcount
  rw [h.holds.result,sqlSum]
  by_cases hn : acc.number = 0
  · rw [if_pos hn,if_pos (hzero hn)]
  · have hne : values rows ≠ 0 := by
      intro hz
      rw [hz,Multiset.card_zero] at hle
      omega
    rw [if_neg hn,if_neg hne,hsum]

instance (rows : Multiset (Option ℤ)) : Decidable (SumFits rows) :=
  inferInstanceAs (Decidable (InSigned 64 _))

theorem sumRun_exact_merged :
    (SumAccumulator.numeric ((NumericState.default.update wrappingKernel
      ⟨32,by decide,[some 5,none],by decide⟩).merge (NumericState.default.updateRow (some 7)))).result =
      sqlSum ((0 + ↑[some (5 : ℤ),none]) + (0 + {some 7})) :=
  sumRun_exact (.numericMerge (.numericUpdate .numericNew ⟨32,by decide,[some 5,none],by decide⟩ (by decide)
    (by decide)) (.numericUpdateRow .numericNew (some 7) (by decide)) (by decide)) (by decide)

/-- A batch of Int32 values wraps at 32 bits where their rows do not, and a saturated part stays lost. -/
theorem sum_depends_on_plan :
    sqlSum {some 2147483647,some 1} = some 2147483648 ∧
    (NumericState.default.update wrappingKernel
      ⟨32,by decide,[some 2147483647,some 1],by decide⟩).sumValue = some (-2147483648) ∧
    ((NumericState.default.updateRow (some 2147483647)).updateRow (some 1)).sumValue = some 2147483648 ∧
    sqlSum {some 9223372036854775807,some 1,some (-1)} = some 9223372036854775807 ∧
    ((((CountSumGroup.new none).updateRawI64NonNull 9223372036854775807).updateRawI64NonNull
      1).updateRawI64NonNull (-1)).tally.result = some 9223372036854775806 := by
  decide

end Dodam.Execution
