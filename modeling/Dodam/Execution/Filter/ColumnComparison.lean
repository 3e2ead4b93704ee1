import Dodam.Execution.Filter.Comparison

/-! # Comparing two decimal columns

Two columns of different scales are compared at the larger one: the stored integers are
multiplied by powers of ten before they are compared.
-/
namespace Dodam.Execution
open Foundation

structure Decimal128Column where
  scale : Int8
  values : List (Option ℤ)

/-- The scales are bytes, and so is their difference. -/
def decimalAlignFactor (fromScale toScale : Int8) : Result ℤ :=
  if toScale < fromScale then invalidFilter s!"cannot align decimal scale {fromScale.toInt} to {toScale.toInt}"
  else
    let scale := wrapSigned 8 (toScale.toInt - fromScale.toInt)
    if scale < 0 then invalidFilter "decimal scale is too large" else decimalScaleFactor scale.toNat

/-- A product that overflows is left through `?` like a NULL. -/
def compareAligned (leftFactor rightFactor : ℤ) (op : ComparisonOp) (left right : Option ℤ) : Option Bool := do
  let left ← left
  let right ← right
  let left ← checkedSigned 128 (left * leftFactor)
  let right ← checkedSigned 128 (right * rightFactor)
  return decide (op.Holds left right)

def compareDecimal128Columns (left right : Decimal128Column) (op : ComparisonOp) : Result (List (Option Bool)) :=
  if left.values.length ≠ right.values.length then invalidFilter "decimal column length mismatch"
  else do
    let scale := max left.scale right.scale
    let leftFactor ← decimalAlignFactor left.scale scale
    let rightFactor ← decimalAlignFactor right.scale scale
    return List.zipWith (compareAligned leftFactor rightFactor op) left.values right.values

def decimalNumber (scale : Int8) (value : ℤ) : ℚ := value / 10 ^ scale.toInt

def compareNumbers (leftScale rightScale : Int8) (op : ComparisonOp) (left right : Option ℤ) : Option Bool := do
  let left ← left
  let right ← right
  return decide (op.Holds (decimalNumber leftScale left) (decimalNumber rightScale right))

/-- Both operands fit 128 bits at the larger scale, unless one is NULL. -/
def FitsAligned (leftScale rightScale : Int8) (left right : Option ℤ) : Prop :=
  ∀ x y, left = some x → right = some y →
    InSigned 128 (x * 10 ^ (max leftScale.toInt rightScale.toInt - leftScale.toInt).toNat) ∧
      InSigned 128 (y * 10 ^ (max leftScale.toInt rightScale.toInt - rightScale.toInt).toNat)

section Factor
variable {fromScale toScale leftScale rightScale : Int8}

theorem int8_bounds (scale : Int8) : -2 ^ 7 ≤ scale.toInt ∧ scale.toInt < 2 ^ 7 := ⟨scale.le_toInt,scale.toInt_lt⟩

theorem decimalScaleFactor_iff {scale : ℕ} {factor : ℤ} : decimalScaleFactor scale = .ok factor ↔ scale ≤ 38 ∧ factor = 10 ^ scale := by
  have hbound : InSigned 128 ((10 : ℤ) ^ scale) ↔ scale ≤ 38 := by
    constructor
    · intro h
      by_contra hlarge
      have hpow : (10 : ℤ) ^ 39 ≤ 10 ^ scale := pow_le_pow_right₀ (by norm_num) (by omega)
      have hsmall := h.2
      norm_num at hpow hsmall
      omega
    · intro h
      have hpow : (10 : ℤ) ^ scale ≤ 10 ^ 38 := pow_le_pow_right₀ (by norm_num) h
      have hpos : (0 : ℤ) < 10 ^ scale := by positivity
      norm_num at hpow
      exact ⟨by norm_num; omega,by norm_num; omega⟩
  constructor
  · intro h
    obtain ⟨rfl,hin⟩ := decimalScaleFactor_ok h
    exact ⟨hbound.mp hin,rfl⟩
  · rintro ⟨hscale,rfl⟩
    exact decimalScaleFactor_of_mem (hbound.mpr hscale)

variable (fromScale toScale) in
theorem decimalAlignFactor_iff (factor : ℤ) (hle : fromScale.toInt ≤ toScale.toInt) :
    decimalAlignFactor fromScale toScale = .ok factor ↔
      toScale.toInt - fromScale.toInt ≤ 38 ∧ factor = 10 ^ (toScale.toInt - fromScale.toInt).toNat := by
  obtain ⟨hlow,hhigh⟩ := int8_bounds fromScale
  obtain ⟨hlow',hhigh'⟩ := int8_bounds toScale
  have hnot : ¬toScale < fromScale := by
    rw [Int8.lt_iff_toInt_lt]
    omega
  unfold decimalAlignFactor
  rw [if_neg hnot]
  by_cases hfits : toScale.toInt - fromScale.toInt < 2 ^ 7
  · have hwrap : wrapSigned 8 (toScale.toInt - fromScale.toInt) = toScale.toInt - fromScale.toInt :=
      Int.bmod_eq_of_le (by omega) (by omega)
    rw [hwrap,if_neg (by omega),decimalScaleFactor_iff]
    refine and_congr_left fun _ => ?_
    omega
  · have hwrap : wrapSigned 8 (toScale.toInt - fromScale.toInt) < 0 := by
      unfold wrapSigned
      rw [Int.bmod_def]
      omega
    rw [if_pos hwrap]
    exact iff_of_false (invalidFilter_ne_ok _ _) fun h => by omega

theorem max_toInt (left right : Int8) : (max left right).toInt = max left.toInt right.toInt := by
  have hmax : max left right = if left ≤ right then right else left := rfl
  rw [hmax]
  split <;> rename_i h <;> rw [Int8.le_iff_toInt_le] at h
  · rw [max_eq_right h]
  · rw [max_eq_left (by omega)]

end Factor

section Row
variable {leftScale rightScale : Int8} {op : ComparisonOp}

theorem decimalNumber_mul {scale : Int8} {target : ℤ} (h : scale.toInt ≤ target) (value : ℤ) :
    decimalNumber scale value * 10 ^ target = ((value * 10 ^ (target - scale.toInt).toNat : ℤ) : ℚ) := by
  have hsplit : (10 : ℚ) ^ target = 10 ^ scale.toInt * 10 ^ (target - scale.toInt).toNat := by
    rw [← zpow_natCast,Int.toNat_of_nonneg (by omega),← zpow_add₀ (by norm_num)]
    congr 1
    omega
  have hne : (10 : ℚ) ^ scale.toInt ≠ 0 := zpow_ne_zero _ (by norm_num)
  rw [decimalNumber,hsplit,← mul_assoc,div_mul_cancel₀ _ hne]
  push_cast
  rfl

variable (op) in
theorem holds_aligned {target : ℤ} (hleft : leftScale.toInt ≤ target) (hright : rightScale.toInt ≤ target) (x y : ℤ) :
    op.Holds (x * 10 ^ (target - leftScale.toInt).toNat) (y * 10 ^ (target - rightScale.toInt).toNat) ↔
      op.Holds (decimalNumber leftScale x) (decimalNumber rightScale y) := by
  have hpos : (0 : ℚ) < 10 ^ target := zpow_pos (by norm_num) _
  have hscaled := OrderTest.holds_map (f := fun q : ℚ => q * 10 ^ target) (fun _ _ h => mul_lt_mul_of_pos_right h hpos) op
    (decimalNumber leftScale x) (decimalNumber rightScale y)
  have hcast := OrderTest.holds_map (f := fun n : ℤ => (n : ℚ)) Int.cast_strictMono op
    (x * 10 ^ (target - leftScale.toInt).toNat) (y * 10 ^ (target - rightScale.toInt).toNat)
  simp only [decimalNumber_mul hleft,decimalNumber_mul hright] at hscaled
  exact hcast.symm.trans hscaled

theorem compareAligned_eq_iff {target : ℤ} (htarget : target = max leftScale.toInt rightScale.toInt) (left right : Option ℤ) :
    compareAligned (10 ^ (target - leftScale.toInt).toNat) (10 ^ (target - rightScale.toInt).toNat) op left right =
        compareNumbers leftScale rightScale op left right ↔
      FitsAligned leftScale rightScale left right := by
  cases left with
  | none => exact iff_of_true rfl fun _ _ h => nomatch h
  | some x =>
    cases right with
    | none => exact iff_of_true rfl fun _ _ _ h => nomatch h
    | some y =>
      subst htarget
      have hfits : FitsAligned leftScale rightScale (some x) (some y) ↔
          InSigned 128 (x * 10 ^ (max leftScale.toInt rightScale.toInt - leftScale.toInt).toNat) ∧
            InSigned 128 (y * 10 ^ (max leftScale.toInt rightScale.toInt - rightScale.toInt).toNat) :=
        ⟨fun h => h x y rfl rfl,fun h _ _ hx hy => by cases hx; cases hy; exact h⟩
      rw [hfits]
      have hexact := holds_aligned op (le_max_left leftScale.toInt rightScale.toInt)
        (le_max_right leftScale.toInt rightScale.toInt) x y
      simp only [compareAligned,compareNumbers,Option.bind_eq_bind,Option.bind_some,Option.pure_def]
      by_cases hx : InSigned 128 (x * 10 ^ (max leftScale.toInt rightScale.toInt - leftScale.toInt).toNat)
      · rw [checkedSigned_of_mem hx,Option.bind_some]
        by_cases hy : InSigned 128 (y * 10 ^ (max leftScale.toInt rightScale.toInt - rightScale.toInt).toNat)
        · rw [checkedSigned_of_mem hy,Option.bind_some]
          exact iff_of_true (by simp [hexact]) ⟨hx,hy⟩
        · exact iff_of_false (by simp [checkedSigned,hy]) fun h => hy h.2
      · exact iff_of_false (by simp [checkedSigned,hx]) fun h => hx h.1

end Row

theorem zipWith_eq_zipWith_iff {α β γ : Type*} {f g : α → β → γ} {left : List α} {right : List β} :
    List.zipWith f left right = List.zipWith g left right ↔ ∀ pair ∈ left.zip right, f pair.1 pair.2 = g pair.1 pair.2 := by
  have hmap : ∀ h : α → β → γ, List.zipWith h left right = (left.zip right).map fun pair => h pair.1 pair.2 := fun h =>
    (List.map_zip_eq_zipWith (f := Function.uncurry h)).symm
  rw [hmap,hmap]
  exact List.map_inj_left

section Columns
variable {left right : Decimal128Column} {op : ComparisonOp}

theorem compareDecimal128Columns_eq_ok {mask : List (Option Bool)} :
    compareDecimal128Columns left right op = .ok mask ↔
      left.values.length = right.values.length ∧
        max left.scale.toInt right.scale.toInt - left.scale.toInt ≤ 38 ∧
        max left.scale.toInt right.scale.toInt - right.scale.toInt ≤ 38 ∧
        mask = List.zipWith
          (compareAligned (10 ^ (max left.scale.toInt right.scale.toInt - left.scale.toInt).toNat)
            (10 ^ (max left.scale.toInt right.scale.toInt - right.scale.toInt).toNat) op) left.values right.values := by
  have hleft := fun factor => decimalAlignFactor_iff left.scale (max left.scale right.scale) factor
    (by rw [max_toInt]; exact le_max_left _ _)
  have hright := fun factor => decimalAlignFactor_iff right.scale (max left.scale right.scale) factor
    (by rw [max_toInt]; exact le_max_right _ _)
  simp only [max_toInt] at hleft hright
  unfold compareDecimal128Columns
  by_cases hlength : left.values.length = right.values.length
  · rw [if_neg (not_not.mpr hlength)]
    constructor
    · intro h
      obtain ⟨leftFactor,hl,h⟩ := except_bind_eq_ok.mp h
      obtain ⟨rightFactor,hr,h⟩ := except_bind_eq_ok.mp h
      obtain ⟨hlle,rfl⟩ := (hleft _).mp hl
      obtain ⟨hrle,rfl⟩ := (hright _).mp hr
      exact ⟨hlength,hlle,hrle,(Except.ok.inj h).symm⟩
    · rintro ⟨-,hlle,hrle,rfl⟩
      dsimp only
      rw [(hleft _).mpr ⟨hlle,rfl⟩,except_bind_ok,(hright _).mpr ⟨hrle,rfl⟩,except_bind_ok]
      rfl
  · rw [if_pos hlength]
    exact iff_of_false (invalidFilter_ne_ok _ _) fun h => hlength h.1

end Columns

/-- A mask is given for columns of one length whose scales are at most 38 apart.
It compares the numbers exactly unless some row without a NULL has an operand
that leaves 128 bits at the larger scale. -/
theorem compareDecimal128Columns_exact_iff (left right : Decimal128Column) (op : ComparisonOp) :
    ((∃ mask, compareDecimal128Columns left right op = .ok mask) ↔
        left.values.length = right.values.length ∧
          max left.scale.toInt right.scale.toInt - min left.scale.toInt right.scale.toInt ≤ 38) ∧
      ∀ mask, compareDecimal128Columns left right op = .ok mask →
        (mask = List.zipWith (compareNumbers left.scale right.scale op) left.values right.values ↔
          ∀ pair ∈ left.values.zip right.values, FitsAligned left.scale right.scale pair.1 pair.2) := by
  constructor
  · simp only [compareDecimal128Columns_eq_ok]
    constructor
    · rintro ⟨-,hlength,hleft,hright,-⟩
      exact ⟨hlength,by omega⟩
    · rintro ⟨hlength,hscales⟩
      exact ⟨_,hlength,by omega,by omega,rfl⟩
  · intro mask h
    obtain ⟨-,-,-,rfl⟩ := compareDecimal128Columns_eq_ok.mp h
    rw [zipWith_eq_zipWith_iff]
    exact forall₂_congr fun pair _ => compareAligned_eq_iff rfl pair.1 pair.2

/-- 10^37 is greater than 0, but not when the zero has five digits after the point. -/
theorem compareDecimal128Columns_overflow :
    compareDecimal128Columns ⟨0,[some (10 ^ 37)]⟩ ⟨5,[some 0]⟩ .gt = .ok [none] ∧
      List.zipWith (compareNumbers 0 5 .gt) [some (10 ^ 37)] [some 0] = [some true] := by
  constructor
  · decide +kernel
  · decide +kernel

end Dodam.Execution
