import Dodam.Execution.Filter.ColumnComparison
import Dodam.Sql.DecimalCasts

/-! # Arithmetic of evaluated scalars

Sums, differences, products and quotients of integers and decimals, row by row,
against the exact numbers; the type that a decimal result gets; and the product
of a decimal column with the complement of another one, which has a path of its
own.
-/
namespace Dodam.Sql
open Foundation Execution

/-- A row of two operands is NULL where one of them is. -/
def factorRow {α β : Type} (f : α → α → Option β) : Option α × Option α → Option β
  | (some left,some right) => f left right
  | _ => none

def Paired {α : Type} (left right : List (Option α)) (l r : α) : Prop := (some l,some r) ∈ List.zip left right

/-- Integers and decimals within their types. -/
def ScalarValues.Operand : ScalarValues → Prop
  | .int64 values => ∀ v, some v ∈ values → InSigned 64 v
  | .decimal128 values precision scale =>
    LegalDecimal precision scale ∧ ∀ v, some v ∈ values → |v| < 10 ^ precision.toNat
  | _ => False

def ScalarValues.nulls : ScalarValues → List Bool
  | .int64 values | .decimal128 values _ _ => values.map Option.isNone
  | _ => []

/-- A quotient of integers is truncated; a division by zero is NULL. -/
def exactInteger (op : BinaryOperator) (left right : ℤ) : Option ℤ :=
  match op with
  | .plus => some (left + right)
  | .minus => some (left - right)
  | .multiply => some (left * right)
  | .divide => if right = 0 then none else some (left.tdiv right)
  | _ => none

def exactDecimal (op : BinaryOperator) (left right : ℚ) : Option ℚ :=
  match op with
  | .plus => some (left + right)
  | .minus => some (left - right)
  | .multiply => some (left * right)
  | _ => none

def atScale (scale : Int8) (values : List (Option ℤ)) : List (Option ℚ) :=
  values.map (Option.map fun v : ℤ => (v / 10 ^ scale.toInt.toNat : ℚ))

/-- The result has the exact values, of a type that holds them. Of a floating-point result only the
NULLs are told. -/
def KeepsValues (op : BinaryOperator) : ScalarValues → ScalarValues → ScalarValues → Prop
  | .int64 left,.int64 right,.int64 values => values = (List.zip left right).map (factorRow (exactInteger op))
  | .decimal128 left _ leftScale,.decimal128 right _ rightScale,.decimal128 values precision scale =>
    LegalDecimal precision scale ∧ (∀ v, some v ∈ values → |v| < 10 ^ precision.toNat) ∧
      atScale scale values =
        (List.zip (atScale leftScale left) (atScale rightScale right)).map (factorRow (exactDecimal op))
  | left,right,.float64 values => values.map Option.isNone = List.zipWith Bool.or left.nulls right.nulls
  | _,_,_ => False

def aligned (value : ℤ) (fromScale toScale : Int8) : ℤ := value * 10 ^ (toScale.toInt - fromScale.toInt).toNat

/-- The integer of a sum or a difference at the larger scale. -/
def alignedSum (op : BinaryOperator) (leftScale rightScale : Int8) (left right : ℤ) : ℤ :=
  aligned left leftScale (max leftScale rightScale) +
    if op = .minus then -aligned right rightScale (max leftScale rightScale)
    else aligned right rightScale (max leftScale rightScale)

def AlignsWithin (op : BinaryOperator) (leftScale rightScale : Int8) (left right : ℤ) : Prop :=
  InSigned 128 (aligned left leftScale (max leftScale rightScale)) ∧
    InSigned 128 (aligned right rightScale (max leftScale rightScale)) ∧
    InSigned 128 (alignedSum op leftScale rightScale left right)

/-- Integers stay within 64 bits; a decimal result either leaves 128 bits, which is an error, or keeps
to the digits of its type. -/
def FitsArithmetic (op : BinaryOperator) : ScalarValues → ScalarValues → Prop
  | .int64 left,.int64 right => ∀ l r v, Paired left right l r → exactInteger op l r = some v →
      InSigned 64 v
  | .decimal128 left leftPrecision leftScale,.decimal128 right rightPrecision rightScale =>
    match op with
    | .divide => True
    | .multiply => (∃ l r, Paired left right l r ∧ ¬InSigned 128 (l * r)) ∨
        leftScale.toInt + rightScale.toInt ≤ 38 ∧ ∀ l r, Paired left right l r →
          |l * r| < 10 ^ min (max (leftPrecision.toNat + rightPrecision.toNat) 18) 38
    | op => (∃ l r, Paired left right l r ∧ ¬AlignsWithin op leftScale rightScale l r) ∨
        ∀ l r, Paired left right l r →
          |alignedSum op leftScale rightScale l r| < 10 ^ min (max leftPrecision.toNat rightPrecision.toNat + 1) 38
  | _,_ => True

structure LosesNothing (op : BinaryOperator) (left right : ScalarValues) (result : Result ScalarValues) : Prop where
  noPanic : result ≠ .error .panicked
  keeps : ∀ values, result = .ok values → KeepsValues op left right values

section Rows
variable {α β : Type} {f : α → α → Result (Option β)} {g : α → α → Option β} {left right : List (Option α)}

theorem mapRows_eq_ok : mapRows f left right = .ok ((List.zip left right).map (factorRow g)) ↔
    ∀ l r, Paired left right l r → f l r = .ok (g l r) := by
  unfold mapRows
  rw [mapM_ok_iff,List.forall₂_map_right_iff,List.forall₂_same]
  constructor
  · exact fun h l r hmem => h (some l,some r) hmem
  · intro h pair hpair
    obtain ⟨l,r⟩ := pair
    cases l with
    | none => rfl
    | some l =>
      cases r with
      | none => rfl
      | some r => exact h l r hpair

theorem mapRows_row {values : List (Option β)} (h : mapRows f left right = .ok values) {l r : α}
    (hmem : Paired left right l r) : ∃ value, f l r = .ok value := by
  have hrows := mapM_ok_iff.mp h
  obtain ⟨i,hi,hget⟩ := List.mem_iff_getElem.mp hmem
  have hrow := hrows.get hi (hrows.length_eq ▸ hi)
  rw [List.get_eq_getElem,hget] at hrow
  exact ⟨_,hrow⟩

theorem bind_pure_error {γ δ : Type} {result : Result γ} {f : γ → δ} {e : Failure}
    (h : (do let value ← result; pure (f value)) = .error e) : result = .error e := by
  cases result with
  | ok value => cases h
  | error e' => exact congrArg Except.error (Except.error.inj h)

theorem mapRows_error {e : Failure} (h : mapRows f left right = .error e) : ∃ l r, f l r = .error e := by
  unfold mapRows at h
  generalize List.zip left right = pairs at h
  induction pairs with
  | nil => cases h
  | cons pair pairs ih =>
    rw [List.mapM_cons] at h
    obtain ⟨l,r⟩ := pair
    cases l with
    | none =>
      rw [except_bind_ok] at h
      exact ih (bind_pure_error h)
    | some l =>
      cases r with
      | none =>
        rw [except_bind_ok] at h
        exact ih (bind_pure_error h)
      | some r =>
        cases hrow : f l r with
        | error e' =>
          dsimp only at h
          rw [hrow] at h
          exact ⟨l,r,hrow.trans (congrArg Except.error (Except.error.inj h))⟩
        | ok value =>
          dsimp only at h
          rw [hrow,except_bind_ok] at h
          exact ih (bind_pure_error h)

theorem pairRow_zip_map {γ : Type} {f : β → β → Option γ} (A B : α → β) :
    (List.zip (left.map (Option.map A)) (right.map (Option.map B))).map (factorRow f) =
      (List.zip left right).map (factorRow fun l r => f (A l) (B r)) := by
  rw [List.zip_map,List.map_map]
  refine List.map_congr_left fun pair _ => ?_
  obtain ⟨l,r⟩ := pair
  cases l <;> cases r <;> rfl

theorem map_pairRow {γ δ : Type} {f : α → α → γ} (h : γ → δ) :
    ((List.zip left right).map (factorRow fun l r => some (f l r))).map (Option.map h) =
      (List.zip left right).map (factorRow fun l r => some (h (f l r))) := by
  rw [List.map_map]
  refine List.map_congr_left fun pair _ => ?_
  obtain ⟨l,r⟩ := pair
  cases l <;> cases r <;> rfl

end Rows

section Integers

variable {op : BinaryOperator}

theorem i64Arithmetic_of_fits {l r : ℤ} (h : ∀ v, exactInteger op l r = some v → InSigned 64 v) :
    i64Arithmetic op l r = .ok (exactInteger op l r) := by
  cases op with
  | divide =>
    unfold exactInteger at h ⊢
    unfold i64Arithmetic
    split_ifs with hzero
    · rfl
    · rw [if_neg hzero] at h
      rw [checkedSigned_of_mem (h _ rfl)]
      rfl
  | plus | minus | multiply => exact congrArg Except.ok (checkedSigned_of_mem (h _ rfl))
  | _ => rfl

theorem i64Arithmetic_of_not_fits {l r v : ℤ} (h : exactInteger op l r = some v)
    (hv : ¬InSigned 64 v) : i64Arithmetic op l r = .ok none ∨ i64Arithmetic op l r = .error .panicked := by
  have hnone : checkedSigned 64 v = none := if_neg hv
  cases op with
  | divide =>
    unfold exactInteger at h
    split_ifs at h with hzero
    cases h
    right
    unfold i64Arithmetic
    rw [if_neg hzero,hnone]
    rfl
  | plus | minus | multiply =>
    cases h
    exact .inl (congrArg Except.ok hnone)
  | _ => cases h

theorem i64Arithmetic_error {l r : ℤ} {e : Failure} (h : i64Arithmetic op l r = .error e) :
    e = .panicked := by
  by_cases hfits : ∀ v, exactInteger op l r = some v → InSigned 64 v
  · rw [i64Arithmetic_of_fits hfits] at h
    cases h
  · simp only [not_forall] at hfits
    obtain ⟨v,hv,hout⟩ := hfits
    rcases i64Arithmetic_of_not_fits hv hout with hrow | hrow
    · rw [hrow] at h
      cases h
    · exact (Except.error.inj (hrow.symm.trans h)).symm

theorem losesNothing_integers_iff (host : ScalarHost) {left right : List (Option ℤ)} :
    LosesNothing op (.int64 left) (.int64 right) (evaluateBinaryScalar host op (.int64 left) (.int64 right)) ↔
      FitsArithmetic op (.int64 left) (.int64 right) := by
  have hresult : evaluateBinaryScalar host op (.int64 left) (.int64 right) =
      (mapRows (i64Arithmetic op) left right).map .int64 := rfl
  rw [hresult]
  constructor
  · rintro ⟨hpanic,hkeeps⟩ l r v hmem hv
    by_contra hout
    cases hrows : mapRows (i64Arithmetic op) left right with
    | error e =>
      obtain ⟨l',r',herror⟩ := mapRows_error hrows
      rw [hrows,i64Arithmetic_error herror] at hpanic
      exact hpanic rfl
    | ok values =>
      have hvalues : values = (List.zip left right).map (factorRow (exactInteger op)) :=
        hkeeps (.int64 values) (by rw [hrows]; rfl)
      have hrow := mapRows_eq_ok.mp (hvalues ▸ hrows) l r hmem
      rw [hv] at hrow
      rcases i64Arithmetic_of_not_fits hv hout with hnone | hpanicked
      · rw [hnone] at hrow
        cases hrow
      · rw [hpanicked] at hrow
        cases hrow
  · intro h
    rw [mapRows_eq_ok.mpr fun l r hmem => i64Arithmetic_of_fits fun v hv => h l r v hmem hv]
    refine ⟨fun hpanic => ?_,fun values hvalues => ?_⟩
    · cases hpanic
    · cases hvalues
      exact rfl

end Integers

section Decimals
variable {left right : List (Option ℤ)} {precision leftPrecision rightPrecision : UInt8}
  {scale leftScale rightScale : Int8} {op : BinaryOperator}

/-- A decimal operation that computes `g` where `within` holds and is an error elsewhere. -/
theorem losesNothing_decimals_iff {f : ℤ → ℤ → Result (Option ℤ)} {g : ℤ → ℤ → ℤ}
    {within : ℤ → ℤ → Prop} (hf : ∀ l r, within l r → f l r = .ok (some (g l r)))
    (herror : ∀ l r, ¬within l r → ∃ message, f l r = unsupportedSql message)
    (hexact : ∀ l r : ℤ, exactDecimal op (l / 10 ^ leftScale.toInt.toNat) (r / 10 ^ rightScale.toInt.toNat) =
      some (g l r / 10 ^ scale.toInt.toNat : ℚ)) :
    LosesNothing op (.decimal128 left leftPrecision leftScale) (.decimal128 right rightPrecision rightScale)
      (do let values ← mapRows f left right; pure (.decimal128 values precision scale)) ↔
    (∃ l r, Paired left right l r ∧ ¬within l r) ∨
      LegalDecimal precision scale ∧ ∀ l r, Paired left right l r → |g l r| < 10 ^ precision.toNat := by
  have hvalues : ∀ v, some v ∈ (List.zip left right).map (factorRow fun l r => some (g l r)) ↔
      ∃ l r, Paired left right l r ∧ g l r = v := by
    intro v
    rw [List.mem_map]
    constructor
    · rintro ⟨⟨l,r⟩,hmem,hrow⟩
      cases l with
      | none => cases hrow
      | some l =>
        cases r with
        | none => cases hrow
        | some r => exact ⟨l,r,hmem,Option.some.inj hrow⟩
    · rintro ⟨l,r,hmem,rfl⟩
      exact ⟨(some l,some r),hmem,rfl⟩
  have hscaled : atScale scale ((List.zip left right).map (factorRow fun l r => some (g l r))) =
      (List.zip (atScale leftScale left) (atScale rightScale right)).map (factorRow (exactDecimal op)) := by
    unfold atScale
    rw [map_pairRow,pairRow_zip_map]
    simp only [hexact]
  by_cases hwithin : ∀ l r, Paired left right l r → within l r
  · have hrows : mapRows f left right = .ok ((List.zip left right).map (factorRow fun l r => some (g l r))) :=
      mapRows_eq_ok.mpr fun l r hmem => hf l r (hwithin l r hmem)
    rw [hrows,except_bind_ok]
    constructor
    · rintro ⟨-,hkeeps⟩
      obtain ⟨hlegal,hfit,-⟩ := hkeeps _ rfl
      exact .inr ⟨hlegal,fun l r hmem => hfit _ ((hvalues _).mpr ⟨l,r,hmem,rfl⟩)⟩
    · rintro (⟨l,r,hmem,hout⟩ | ⟨hlegal,hfit⟩)
      · exact absurd (hwithin l r hmem) hout
      · refine ⟨fun hpanic => ?_,fun values hresult => ?_⟩
        · cases hpanic
        · cases hresult
          refine ⟨hlegal,fun v hv => ?_,hscaled⟩
          obtain ⟨l,r,hmem,rfl⟩ := (hvalues v).mp hv
          exact hfit l r hmem
  · simp only [not_forall] at hwithin
    obtain ⟨l,r,hmem,hout⟩ := hwithin
    refine iff_of_true ⟨fun hpanic => ?_,fun values hresult => ?_⟩ (.inl ⟨l,r,hmem,hout⟩)
    · obtain ⟨l',r',hrow⟩ := mapRows_error (bind_pure_error hpanic)
      by_cases hin : within l' r'
      · rw [hf l' r' hin] at hrow
        cases hrow
      · obtain ⟨message,hmessage⟩ := herror l' r' hin
        rw [hmessage] at hrow
        cases hrow
    · obtain ⟨rows,hrows,-⟩ := except_bind_eq_ok.mp hresult
      obtain ⟨value,hvalue⟩ := mapRows_row hrows hmem
      obtain ⟨message,hmessage⟩ := herror l r hout
      rw [hmessage] at hvalue
      cases hvalue

theorem toNat_precision (n : ℕ) : (UInt8.ofNat (min n 38)).toNat = min n 38 :=
  UInt8.toNat_ofNat_of_lt' (by unfold UInt8.size; omega)

theorem alignDecimalValue_eq {value : ℤ} (h : 0 ≤ leftScale.toInt) (hle : leftScale.toInt ≤ scale.toInt)
    (hscale : scale.toInt ≤ 38) : alignDecimalValue value leftScale scale =
      okOr (checkedSigned 128 (aligned value leftScale scale)) (unsupportedSql "decimal scale alignment overflow") := by
  rw [alignDecimalValue,decimalAlignFactor_of_le h hle hscale,except_bind_ok]
  rfl

theorem aligned_div (value : ℤ) (h : 0 ≤ leftScale.toInt) (hle : leftScale.toInt ≤ scale.toInt) :
    (aligned value leftScale scale / 10 ^ scale.toInt.toNat : ℚ) = value / 10 ^ leftScale.toInt.toNat := by
  have hsplit : scale.toInt.toNat = leftScale.toInt.toNat + (scale.toInt - leftScale.toInt).toNat := by omega
  unfold aligned
  rw [hsplit,pow_add]
  push_cast
  field_simp

theorem addDecimals_eq (hop : op = .plus ∨ op = .minus) (hleft : 0 ≤ leftScale.toInt ∧ leftScale.toInt ≤ 38)
    (hright : 0 ≤ rightScale.toInt ∧ rightScale.toInt ≤ 38) (l r : ℤ) :
    (AlignsWithin op leftScale rightScale l r →
      addDecimals (op = .minus) leftScale rightScale (max leftScale rightScale) l r =
        .ok (some (alignedSum op leftScale rightScale l r))) ∧
    (¬AlignsWithin op leftScale rightScale l r →
      ∃ message, addDecimals (op = .minus) leftScale rightScale (max leftScale rightScale) l r = unsupportedSql message) := by
  have hmax := max_toInt leftScale rightScale
  have hsum : (if decide (op = .minus) = true then aligned l leftScale (max leftScale rightScale) -
      aligned r rightScale (max leftScale rightScale) else aligned l leftScale (max leftScale rightScale) +
      aligned r rightScale (max leftScale rightScale)) = alignedSum op leftScale rightScale l r := by
    rcases hop with rfl | rfl
    · rfl
    · exact sub_eq_add_neg _ _
  unfold addDecimals AlignsWithin
  rw [alignDecimalValue_eq hleft.1 (by omega) (by omega),alignDecimalValue_eq hright.1 (by omega) (by omega)]
  by_cases hl : InSigned 128 (aligned l leftScale (max leftScale rightScale))
  · by_cases hr : InSigned 128 (aligned r rightScale (max leftScale rightScale))
    · rw [checkedSigned_of_mem hl,checkedSigned_of_mem hr]
      simp only [okOr,except_bind_ok]
      rw [hsum]
      by_cases hin : InSigned 128 (alignedSum op leftScale rightScale l r)
      · rw [checkedSigned_of_mem hin]
        exact ⟨fun _ => rfl,fun h => absurd ⟨hl,hr,hin⟩ h⟩
      · rw [checkedSigned,if_neg hin]
        exact ⟨fun h => absurd h.2.2 hin,fun _ => ⟨_,rfl⟩⟩
    · rw [checkedSigned_of_mem hl,checkedSigned,if_neg hr]
      exact ⟨fun h => absurd h.2.1 hr,fun _ => ⟨_,rfl⟩⟩
  · rw [checkedSigned,if_neg hl]
    exact ⟨fun h => absurd h.1 hl,fun _ => ⟨_,rfl⟩⟩

theorem losesNothing_sum_iff (host : ScalarHost) (hop : op = .plus ∨ op = .minus)
    (hleft : LegalDecimal leftPrecision leftScale) (hright : LegalDecimal rightPrecision rightScale) :
    LosesNothing op (.decimal128 left leftPrecision leftScale) (.decimal128 right rightPrecision rightScale)
      (evaluateBinaryScalar host op (.decimal128 left leftPrecision leftScale) (.decimal128 right rightPrecision rightScale)) ↔
    FitsArithmetic op (.decimal128 left leftPrecision leftScale) (.decimal128 right rightPrecision rightScale) := by
  obtain ⟨⟨hlp,hlp'⟩,hls,hls'⟩ := hleft
  obtain ⟨⟨hrp,hrp'⟩,hrs,hrs'⟩ := hright
  have hmax := max_toInt leftScale rightScale
  obtain ⟨precision,hprecision⟩ : ∃ precision, precision =
      UInt8.ofNat (min (max leftPrecision.toNat rightPrecision.toNat + 1) 38) := ⟨_,rfl⟩
  have hdigits : precision.toNat = min (max leftPrecision.toNat rightPrecision.toNat + 1) 38 := by
    rw [hprecision,toNat_precision]
  have hlegal : LegalDecimal precision (max leftScale rightScale) := ⟨by omega,by omega⟩
  have hresult : evaluateBinaryScalar host op (.decimal128 left leftPrecision leftScale)
      (.decimal128 right rightPrecision rightScale) = (do
        let values ← mapRows (addDecimals (op = .minus) leftScale rightScale (max leftScale rightScale)) left right
        pure (.decimal128 values precision (max leftScale rightScale))) := by
    rw [hprecision]
    exact if_pos hop
  have hadd := addDecimals_eq hop ⟨hls,by omega⟩ ⟨hrs,by omega⟩
  rw [hresult,losesNothing_decimals_iff (fun l r => (hadd l r).1) (fun l r => (hadd l r).2) ?_,hdigits]
  · rcases hop with rfl | rfl
    all_goals exact or_congr_right ⟨fun h => h.2,fun h => ⟨hlegal,h⟩⟩
  · intro l r
    rw [← aligned_div l hls (by omega : leftScale.toInt ≤ (max leftScale rightScale).toInt),
      ← aligned_div r hrs (by omega : rightScale.toInt ≤ (max leftScale rightScale).toInt)]
    unfold alignedSum
    rcases hop with rfl | rfl
    · rw [if_neg (by decide),exactDecimal]
      push_cast
      rw [add_div]
    · rw [if_pos rfl,exactDecimal]
      push_cast
      rw [← sub_eq_add_neg,sub_div]

theorem losesNothing_product_iff (host : ScalarHost) (hleft : LegalDecimal leftPrecision leftScale)
    (hright : LegalDecimal rightPrecision rightScale) :
    LosesNothing .multiply (.decimal128 left leftPrecision leftScale) (.decimal128 right rightPrecision rightScale)
      (evaluateBinaryScalar host .multiply (.decimal128 left leftPrecision leftScale)
        (.decimal128 right rightPrecision rightScale)) ↔
    FitsArithmetic .multiply (.decimal128 left leftPrecision leftScale) (.decimal128 right rightPrecision rightScale) := by
  obtain ⟨⟨hlp,hlp'⟩,hls,hls'⟩ := hleft
  obtain ⟨⟨hrp,hrp'⟩,hrs,hrs'⟩ := hright
  obtain ⟨precision,hprecision⟩ : ∃ precision, precision =
      UInt8.ofNat (min (max (leftPrecision.toNat + rightPrecision.toNat) 18) 38) := ⟨_,rfl⟩
  have hdigits : precision.toNat = min (max (leftPrecision.toNat + rightPrecision.toNat) 18) 38 := by
    rw [hprecision,toNat_precision]
  obtain ⟨scale,hscale⟩ : ∃ scale, scale = Int8.ofInt (leftScale.toInt + rightScale.toInt) := ⟨_,rfl⟩
  have hscale' : scale.toInt = leftScale.toInt + rightScale.toInt := by
    rw [hscale]
    exact Int8.toInt_ofInt_of_le (by omega) (by omega)
  have hlegal : LegalDecimal precision scale ↔ leftScale.toInt + rightScale.toInt ≤ 38 :=
    ⟨fun h => by have := h.scale_mem; omega,fun h => ⟨by omega,by omega⟩⟩
  have hresult : evaluateBinaryScalar host .multiply (.decimal128 left leftPrecision leftScale)
      (.decimal128 right rightPrecision rightScale) = (do
        let values ← mapRows multiplyDecimals left right
        pure (.decimal128 values precision scale)) := by
    have hchecked : checkedSigned 8 (leftScale.toInt + rightScale.toInt) = some (leftScale.toInt + rightScale.toInt) :=
      checkedSigned_of_mem (by unfold InSigned; omega)
    unfold evaluateBinaryScalar
    dsimp only
    rw [if_neg (by decide),if_pos rfl,hchecked,hprecision,hscale]
    rfl
  rw [hresult,losesNothing_decimals_iff (fun l r => ?_) (fun l r => ?_) ?_,hdigits,hlegal]
  · rfl
  · intro l r
    have hsplit : scale.toInt.toNat = leftScale.toInt.toNat + rightScale.toInt.toNat := by omega
    rw [exactDecimal,hsplit,pow_add]
    push_cast
    rw [div_mul_div_comm]
  · intro h
    rw [multiplyDecimals,checkedSigned_of_mem h]
    rfl
  · intro h
    rw [multiplyDecimals,checkedSigned,if_neg h]
    exact ⟨_,rfl⟩

end Decimals

section Floats
variable (host : ScalarHost)

theorem arithmeticAsF64_eq {op : BinaryOperator} {f : String → String → String} {left right : ScalarValues}
    {leftFloats rightFloats : List (Option String)} (hf : ∀ l r, f64Arithmetic host op l r = some (f l r))
    (hleft : scalarAsF64 host left = .ok leftFloats) (hright : scalarAsF64 host right = .ok rightFloats) :
    arithmeticAsF64 host op left right =
      .ok (.float64 ((List.zip leftFloats rightFloats).map (factorRow fun l r => some (f l r)))) := by
  unfold arithmeticAsF64
  simp only [hleft,hright,hf,except_bind_ok]
  rw [mapRows_eq_ok.mpr fun _ _ _ => rfl]
  rfl

theorem scalarAsF64_nulls {value : ScalarValues} (h : value.Operand) :
    ∃ floats, scalarAsF64 host value = .ok floats ∧ floats.map Option.isNone = value.nulls := by
  have hnulls : ∀ (f : ℤ → String) (values : List (Option ℤ)),
      (values.map (Option.map f)).map Option.isNone = values.map Option.isNone := by
    intro f values
    rw [List.map_map]
    exact List.map_congr_left fun v _ => Option.isNone_map
  cases value with
  | int64 values => exact ⟨_,rfl,hnulls _ values⟩
  | decimal128 values precision scale =>
    obtain ⟨⟨hp,hp'⟩,hs,hs'⟩ := h.1
    have hscale : decimalScaleF64 scale = .ok () := by
      rw [decimalScaleF64,decimalScaleI128_of_mem ⟨hs,by omega⟩]
      rfl
    refine ⟨_,?_,hnulls (fun v => host.floats.ofDecimal v scale) values⟩
    rw [scalarAsF64,hscale]
    rfl
  | _ => exact h.elim

theorem losesNothing_floats {op : BinaryOperator} (hop : op ∈ [.plus,.minus,.multiply,.divide]) {left right : ScalarValues}
    (hleft : left.Operand) (hright : right.Operand) : LosesNothing op left right (arithmeticAsF64 host op left right) := by
  obtain ⟨leftFloats,hl,hlnulls⟩ := scalarAsF64_nulls host hleft
  obtain ⟨rightFloats,hr,hrnulls⟩ := scalarAsF64_nulls host hright
  obtain ⟨f,hf⟩ : ∃ f : String → String → String, ∀ l r, f64Arithmetic host op l r = some (f l r) := by
    simp only [List.mem_cons,List.not_mem_nil,or_false] at hop
    rcases hop with rfl | rfl | rfl | rfl
    all_goals exact ⟨_,fun _ _ => rfl⟩
  have hnulls : ((List.zip leftFloats rightFloats).map (factorRow fun l r => some (f l r))).map Option.isNone =
      List.zipWith Bool.or left.nulls right.nulls := by
    rw [← hlnulls,← hrnulls,List.zipWith_map,List.zip_eq_zipWith,List.map_zipWith,List.map_zipWith]
    refine congrArg₂ (fun f rows => List.zipWith f rows rightFloats) (funext₂ fun l r => ?_) rfl
    cases l <;> cases r <;> rfl
  have hkeeps : ∀ values, KeepsValues op left right (.float64 values) =
      (values.map Option.isNone = List.zipWith Bool.or left.nulls right.nulls) := by
    intro values
    cases left <;> cases right <;> rfl
  rw [arithmeticAsF64_eq host hf hl hr]
  refine ⟨fun hpanic => ?_,fun values hvalues => ?_⟩
  · cases hpanic
  · cases hvalues
    rw [hkeeps]
    exact hnulls

end Floats

section Product
variable (host : ScalarHost) (batch : NamedBatch)

def FoundColumn : ScalarSqlExpression → Prop
  | .column column => batch.outputColumn column =
      okOr ((batch.columns.find? fun field => field.1 = column).map Prod.snd) (unknownColumn column)
  | _ => True

/-- The columns that the path of products looks up are the first ones of exactly their names. -/
def FoundByName : ScalarSqlExpression → Prop
  | .binary _ _ right => FoundColumn batch right
  | expr => FoundColumn batch expr

/-- A product by the rules of all expressions. -/
def generalProduct (left right : ScalarSqlExpression) : Result ScalarValues := do
  let left ← materialized (evaluateScalarExpression host batch left)
  let right ← materialized (evaluateScalarExpression host batch right)
  evaluateBinaryScalar host .multiply left right

/-- A path that may decline: what it gives is related to the general result, and it is an error only
where that is one. -/
structure Follows {α β : Type} (path : Result (Option α)) (general : Result β) (related : α → β → Prop) : Prop where
  values : ∀ a, path = .ok (some a) → ∃ b, general = .ok b ∧ related a b
  fails : ∀ e, path = .error e → ∃ e', general = .error e'

theorem Follows.of_none {α β : Type} {general : Result β} {related : α → β → Prop} : Follows (.ok none) general related where
  values a h := by cases h
  fails e h := by cases h

theorem Follows.of_ok {α β : Type} {a : α} {b : β} {related : α → β → Prop} (h : related a b) :
    Follows (.ok (some a)) (.ok b) related where
  values a' ha' := by
    cases ha'
    exact ⟨b,rfl,h⟩
  fails e he := by cases he

theorem Follows.of_error {α β : Type} {e e' : Failure} {related : α → β → Prop} :
    Follows (.error e) (.error e') related where
  values a h := by cases h
  fails _ _ := ⟨e',rfl⟩

variable {host batch}

theorem zip_replicate {f : String → String → String} {one : String} (values : List (Option String)) :
    (List.zip (List.replicate values.length (some one)) values).map (factorRow fun l r => some (f l r)) =
      values.map (Option.map (f one)) := by
  induction values with
  | nil => rfl
  | cons value values ih =>
    rw [List.length_cons,List.replicate_succ,List.zip_cons_cons,List.map_cons,List.map_cons,ih]
    cases value <;> rfl

theorem scalarLiteralIsOne_value (hone : host.floats.ofInt 1 = "1") {expr : ScalarSqlExpression}
    (h : scalarLiteralIsOne expr = true) : ∃ literal,
      materialized (evaluateScalarExpression host batch expr) = .ok literal ∧
      scalarAsF64 host literal = .ok (List.replicate batch.numRows (some "1")) ∧
      ∀ values precision scale, evaluateBinaryScalar host .minus literal (.decimal128 values precision scale) =
        arithmeticAsF64 host .minus literal (.decimal128 values precision scale) := by
  cases expr with
  | literal value =>
    cases value with
    | int64 value =>
      obtain rfl : value = 1 := of_decide_eq_true h
      refine ⟨_,rfl,?_,fun _ _ _ => rfl⟩
      rw [evaluatedLiteral,scalarAsF64,List.map_replicate]
      exact congrArg (fun text => Except.ok (List.replicate batch.numRows (some text))) hone
    | float64 display =>
      obtain rfl : display = "1" := of_decide_eq_true h
      exact ⟨_,rfl,rfl,fun _ _ _ => rfl⟩
    | _ => cases h
  | _ => cases h

theorem FoundByName.column {expr : ScalarSqlExpression} (h : FoundByName batch expr) : FoundColumn batch expr := by
  cases expr with
  | binary left op right => trivial
  | _ => exact h

theorem decimalScalarColumn_follows {expr : ScalarSqlExpression} (h : FoundColumn batch expr) :
    Follows (decimalScalarColumn batch expr) (materialized (evaluateScalarExpression host batch expr)) fun column value =>
      (∃ precision, value = .decimal128 column.1 precision column.2) ∧ (decimalScaleI128 column.2).isSome ∧
        column.1.length = batch.numRows := by
  cases expr with
  | column column =>
    unfold decimalScalarColumn evaluateScalarExpression
    dsimp only at h ⊢
    rw [h]
    cases hfind : batch.columns.find? fun field => field.1 = column with
    | none => exact .of_error
    | some field =>
      obtain ⟨name,array⟩ := field
      have hlength := batch.length_eq _ (List.mem_of_find?_eq_some hfind)
      cases array with
      | decimal128 precision scale values =>
        by_cases hnone : 18 < precision.toNat ∨ (decimalScaleI128 scale).isNone
        · simp only [Option.map_some,okOr,except_bind_ok,if_pos hnone]
          exact .of_none
        · simp only [Option.map_some,okOr,except_bind_ok,if_neg hnone]
          refine .of_ok ⟨⟨precision,rfl⟩,?_,hlength⟩
          rw [not_or] at hnone
          exact Option.isSome_iff_ne_none.mpr fun hscale => hnone.2 (hscale ▸ rfl)
      | _ => exact .of_none
  | _ => exact .of_none

/-- One minus a column, by the rules of all expressions. -/
theorem decimalOneMinusColumn_follows (hone : host.floats.ofInt 1 = "1") {expr : ScalarSqlExpression}
    (h : FoundByName batch expr) :
    Follows (decimalOneMinusColumn batch expr) (materialized (evaluateScalarExpression host batch expr)) fun column value =>
      value = .float64 (column.1.map (Option.map fun v => host.floats.sub "1" (host.floats.ofDecimal v column.2))) := by
  cases expr with
  | binary left op right =>
    unfold decimalOneMinusColumn
    dsimp only
    split_ifs with hshape
    · exact .of_none
    rw [not_or,not_not,Bool.not_eq_true',Bool.not_eq_false] at hshape
    obtain ⟨rfl,hliteral⟩ := hshape
    obtain ⟨literal,hleft,hfloats,hbinary⟩ := @scalarLiteralIsOne_value host batch hone left hliteral
    have hnone : evaluateDecimalProductExpression host batch left .minus right = .ok none := if_pos (.inr (by decide))
    have hvalue : materialized (evaluateScalarExpression host batch (.binary left .minus right)) =
        (materialized (evaluateScalarExpression host batch right)).bind (evaluateBinaryScalar host .minus literal) := by
      rw [evaluateScalarExpression,hnone,except_bind_ok]
      rw [hleft,except_bind_ok]
      cases materialized (evaluateScalarExpression host batch right) with
      | error e => rfl
      | ok value =>
        rw [except_bind_ok,Except.bind]
        cases evaluateBinaryScalar host .minus literal value <;> rfl
    rw [hvalue]
    have hright := @decimalScalarColumn_follows host batch right h
    constructor
    · intro column hcolumn
      obtain ⟨value,hvalue,⟨precision,rfl⟩,hscale,hlength⟩ := hright.values column hcolumn
      rw [hvalue,Except.bind,hbinary,arithmeticAsF64_eq host (fun _ _ => rfl) hfloats (scalarAsF64_decimal hscale)]
      have hrest := @zip_replicate host.floats.sub "1" (column.1.map (Option.map fun v => host.floats.ofDecimal v column.2))
      rw [List.length_map,hlength,List.map_map] at hrest
      refine ⟨_,rfl,congrArg ScalarValues.float64 (hrest.trans (List.map_congr_left fun v _ => ?_))⟩
      exact Option.map_map _ _ v
    · intro e he
      obtain ⟨e',he'⟩ := hright.fails e he
      rw [he']
      exact ⟨e',rfl⟩
  | _ => exact .of_none

/-- The two factors, and their products in either order. -/
theorem decimalDiscountProduct_follows (hone : host.floats.ofInt 1 = "1") (hmul : ∀ a b, host.mul a b = host.mul b a)
    {value complement : ScalarSqlExpression} (hvalue : FoundByName batch value) (hcomplement : FoundByName batch complement) :
    Follows (decimalDiscountProduct host batch value complement)
      (do let left ← materialized (evaluateScalarExpression host batch value)
          let right ← materialized (evaluateScalarExpression host batch complement)
          pure (left,right)) fun values factors =>
      evaluateBinaryScalar host .multiply factors.1 factors.2 = .ok (.float64 values) ∧
        evaluateBinaryScalar host .multiply factors.2 factors.1 = .ok (.float64 values) := by
  have hleft := @decimalScalarColumn_follows host batch value hvalue.column
  have hright := @decimalOneMinusColumn_follows host batch hone complement hcomplement
  unfold decimalDiscountProduct
  cases hcolumn : decimalScalarColumn batch value with
  | error e =>
    obtain ⟨e',he'⟩ := hleft.fails e hcolumn
    rw [he']
    exact .of_error
  | ok column =>
    rw [except_bind_ok]
    cases column with
    | none => exact .of_none
    | some column =>
      obtain ⟨numbers,scale⟩ := column
      obtain ⟨left,hvalues,⟨precision,rfl⟩,hscale,-⟩ := hleft.values _ hcolumn
      rw [hvalues,except_bind_ok]
      dsimp only
      cases hminus : decimalOneMinusColumn batch complement with
      | error e =>
        obtain ⟨e',he'⟩ := hright.fails e hminus
        rw [he']
        exact .of_error
      | ok other =>
        rw [except_bind_ok]
        cases other with
        | none => exact .of_none
        | some other =>
          obtain ⟨right,hfloats,rfl⟩ := hright.values _ hminus
          rw [hfloats,except_bind_ok]
          dsimp only
          rw [mapRows_eq_ok.mpr fun _ _ _ => rfl]
          refine .of_ok ⟨?_,?_⟩
          · refine (arithmeticAsF64_eq host (fun _ _ => rfl) (scalarAsF64_decimal hscale) rfl).trans ?_
            rw [pairRow_zip_map]
          · refine (arithmeticAsF64_eq host (fun _ _ => rfl) rfl (scalarAsF64_decimal hscale)).trans ?_
            rw [pairRow_zip_map,← List.zip_swap,List.map_map]
            refine congrArg (Except.ok ∘ ScalarValues.float64) (List.map_congr_left fun pair _ => ?_)
            obtain ⟨v,c⟩ := pair
            cases v <;> cases c <;> try rfl
            exact congrArg some (hmul _ _)

/-- The path of products agrees with the general one where it finds its columns by their names. -/
theorem productFollows (hone : host.floats.ofInt 1 = "1") (hmul : ∀ a b, host.mul a b = host.mul b a)
    {left right : ScalarSqlExpression} (hleft : FoundByName batch left) (hright : FoundByName batch right) :
    Follows (evaluateDecimalProductExpression host batch left .multiply right) (generalProduct host batch left right)
      fun values result => result = .float64 values := by
  have hstraight := decimalDiscountProduct_follows hone hmul hleft hright
  have hswapped := decimalDiscountProduct_follows hone hmul hright hleft
  unfold evaluateDecimalProductExpression generalProduct
  generalize materialized (evaluateScalarExpression host batch left) = l at hstraight hswapped ⊢
  generalize materialized (evaluateScalarExpression host batch right) = r at hstraight hswapped ⊢
  split_ifs
  · exact .of_none
  constructor
  · intro values h
    obtain ⟨first,hfirst,h⟩ := except_bind_eq_ok.mp h
    cases first with
    | some first =>
      cases h
      obtain ⟨factors,hfactors,hproduct,-⟩ := hstraight.values _ hfirst
      obtain ⟨l',hl,hrest⟩ := except_bind_eq_ok.mp hfactors
      obtain ⟨r',hr,heq⟩ := except_bind_eq_ok.mp hrest
      cases heq
      rw [hl,hr]
      exact ⟨_,hproduct,rfl⟩
    | none =>
      obtain ⟨factors,hfactors,-,hproduct⟩ := hswapped.values _ h
      obtain ⟨r',hr,hrest⟩ := except_bind_eq_ok.mp hfactors
      obtain ⟨l',hl,heq⟩ := except_bind_eq_ok.mp hrest
      cases heq
      rw [hl,hr]
      exact ⟨_,hproduct,rfl⟩
  · intro e h
    cases l with
    | error e' => exact ⟨e',rfl⟩
    | ok l =>
      cases r with
      | error e' => exact ⟨e',rfl⟩
      | ok r =>
        cases hfirst : decimalDiscountProduct host batch left right with
        | error e' =>
          obtain ⟨_,herror⟩ := hstraight.fails e' hfirst
          cases herror
        | ok first =>
          rw [hfirst,except_bind_ok] at h
          cases first with
          | some first => cases h
          | none =>
            obtain ⟨_,herror⟩ := hswapped.fails e h
            cases herror

end Product

/-- An operation on two values, and a product of two expressions on the rows of a batch. -/
structure ArithmeticExact (host : ScalarHost) (op : BinaryOperator) (left right : ScalarValues) (batch : NamedBatch)
    (value complement : ScalarSqlExpression) : Prop where
  rows : LosesNothing op left right (evaluateBinaryScalar host op left right)
  product : Follows (evaluateDecimalProductExpression host batch value .multiply complement)
    (generalProduct host batch value complement) fun values result => result = .float64 values

/-- Floating-point numbers that are whole, as texts. -/
def wholeHost : ScalarHost :=
  { asciiHost with
    floats := { asciiHost.floats with ofInt := fun value => toString value.toInt }
    mul := fun a b => toString ((parseSigned 64 a.toList).getD 0 * (parseSigned 64 b.toList).getD 0) }

end Dodam.Sql
