import Dodam.Foundation.HalfAway
import Dodam.Sql.FilterMeaning
import Dodam.Sql.PredicateEval

/-! # Casts between decimals, texts and integers

A decimal type takes the rational that a text, an integer or another decimal stands for, rounded
half away from zero at its scale, where its precision has room for it.
-/
namespace Dodam.Sql
open Foundation Execution

/-- The decimal types that `parse_decimal_cast_target` accepts. -/
structure LegalDecimal (precision : UInt8) (scale : Int8) : Prop where
  precision_mem : 1 ≤ precision.toNat ∧ precision.toNat ≤ 38
  scale_mem : 0 ≤ scale.toInt ∧ scale.toInt ≤ precision.toNat

/-- The cast of a value that stands for `q`. -/
def CastsTo (result : Result (List (Option ℤ))) (q : ℚ) (precision : UInt8) (scale : Int8) : Prop :=
  ∀ r, result = .ok [some r] ↔ r = halfAway (q * 10 ^ scale.toInt.toNat) ∧ |r| < 10 ^ precision.toNat

section Steps

theorem pow_le_of_le {k m : ℕ} (h : k ≤ m) : (10 : ℤ) ^ k ≤ 10 ^ m := pow_le_pow_right₀ (by decide) h

theorem inSigned_of_abs_le {v : ℤ} (h : |v| ≤ 10 ^ 38) : InSigned 128 v := by
  rw [abs_le] at h
  unfold InSigned
  omega

theorem inSigned_pow {k : ℕ} (h : k ≤ 38) : InSigned 128 ((10 : ℤ) ^ k) :=
  inSigned_of_abs_le (by rw [abs_of_nonneg (by positivity)]; exact pow_le_of_le h)

theorem decimalScaleI128_of_mem {scale : Int8} (h : 0 ≤ scale.toInt ∧ scale.toInt ≤ 38) :
    decimalScaleI128 scale = some (10 ^ scale.toInt.toNat) := by
  rw [decimalScaleI128,if_neg (by omega)]
  exact checkedSigned_of_mem (inSigned_pow (by omega))

theorem validateDecimalPrecision_eq_ok {precision : UInt8} (h : precision.toNat ≤ 38) {v r : ℤ} :
    validateDecimalPrecision v precision = .ok r ↔ r = v ∧ |v| < 10 ^ precision.toNat := by
  have hscale : precision.toInt8.toInt = precision.toNat := by
    rw [UInt8.toInt8,Int8.toInt,BitVec.toInt_eq_toNat_of_lt]
    · rfl
    · exact (by omega : 2 * precision.toNat < 2 ^ 8)
  unfold validateDecimalPrecision
  rw [decimalScaleI128_of_mem (by omega),hscale,Int.toNat_natCast]
  simp only [okOr,except_bind_ok]
  split_ifs with hlimit
  · exact iff_of_false (invalidCast_ne_ok _ _) fun h => absurd h.2 (not_lt.mpr hlimit)
  · exact ⟨fun h => ⟨(Except.ok.inj h).symm,not_le.mp hlimit⟩,fun h => h.1 ▸ rfl⟩

theorem decimalAlignFactor_of_le {fromScale toScale : Int8} (hfrom : 0 ≤ fromScale.toInt)
    (hle : fromScale.toInt ≤ toScale.toInt) (hto : toScale.toInt ≤ 38) :
    decimalAlignFactor fromScale toScale = .ok (10 ^ (toScale.toInt - fromScale.toInt).toNat) := by
  have hsub : (toScale - fromScale).toInt = toScale.toInt - fromScale.toInt := by
    rw [Int8.toInt_sub]
    exact Int.bmod_eq_of_le (by omega) (by omega)
  rw [decimalAlignFactor,if_neg (by rw [Int8.lt_iff_toInt_lt]; omega),decimalScaleI128_of_mem (by omega),hsub]
  rfl

theorem tdiv_of_abs_lt {v : ℤ} (hv : |v| < 10 ^ 38) : v.tdiv (10 ^ 38) = 0 ∧ v.tmod (10 ^ 38) = v := by
  have hnat : v.natAbs < (10 ^ 38 : ℤ).natAbs := by
    rw [Int.abs_eq_natAbs] at hv
    omega
  have hzero : v.tdiv (10 ^ 38) = 0 := by
    rw [← Int.natAbs_eq_zero,Int.natAbs_tdiv]
    exact Nat.div_eq_of_lt hnat
  have hsum := Int.mul_tdiv_add_tmod v (10 ^ 38)
  rw [hzero,mul_zero,zero_add] at hsum
  exact ⟨hzero,hsum⟩

theorem readRows_singleton {α β : Type} {read : α → Result β} {value : α} {r : β} :
    readRows read [some value] = .ok [some r] ↔ read value = .ok r := by
  unfold readRows
  cases h : read value <;> simp [h,Except.map]

end Steps

section Casts
variable {precision : UInt8} {scale fromScale : Int8} (h : LegalDecimal precision scale)
include h

theorem castsTo_text {text : String} {n : Numeral} (hn : n.Spells isWhitespace text.toList) :
    CastsTo (castToDecimal precision scale (.utf8 [some text])) n.value precision scale := by
  intro r
  obtain ⟨⟨hp,hp'⟩,hs,hs'⟩ := h
  obtain ⟨digits,hdigits⟩ : ∃ digits, digits = scale.toInt.toNat := ⟨_,rfl⟩
  have hparts := decimalParts_of_spells hn
  have hempty : ¬ (trim text.toList).isEmpty = true := by
    intro hempty
    rw [List.isEmpty_iff.mp hempty] at hparts
    cases hparts
  have herror : ∀ (message : String) (b : ℤ), (invalidCast message : Result ℤ) ≠ .ok b := fun _ _ => invalidCast_ne_ok _ _
  rw [castToDecimal,readRows_singleton,n.halfAway_value,← hdigits]
  unfold parseDecimalLiteralToScaled
  simp only [decimalCastOverflow,scaleOverflows]
  rw [if_neg (by omega),if_neg hempty,hparts,decimalScaleI128_of_mem (by omega),← hdigits]
  simp only [take_min_length]
  rw [okOr,except_bind_ok,keptDigits_eq_ok (inSigned_pow (by omega)) n (herror _) (herror _)]
  have hsign : |if n.negative = true then -(n.rounded digits : ℤ) else n.rounded digits| = n.rounded digits := by
    split_ifs
    · rw [abs_neg,Nat.abs_cast]
    · exact Nat.abs_cast _
  have hrounded : (n.rounded digits : ℤ) = n.kept digits + if n.roundsUp digits then 1 else 0 := by
    unfold Numeral.rounded
    push_cast
    rfl
  have hle : (n.kept digits : ℤ) ≤ n.rounded digits := by
    split_ifs at hrounded <;> omega
  have hin : (n.rounded digits : ℤ) < 10 ^ precision.toNat →
      ∀ v : ℤ, 0 ≤ v → v ≤ n.rounded digits → InSigned 128 v := fun hfit v hv hv' =>
    inSigned_of_abs_le (by rw [abs_of_nonneg hv]; exact hv'.trans (hfit.le.trans (pow_le_of_le hp')))
  unfold Numeral.roundsUp at hrounded
  by_cases hup : (n.fractional[digits]?.any fun digit => '5' ≤ digit) = true
  · simp only [hup,if_true] at hrounded ⊢
    rw [except_bind_eq_ok]
    simp only [okOr_eq_ok (herror _),checkedSigned_eq_some,← hrounded]
    constructor
    · rintro ⟨-,_,⟨-,rfl⟩,hvalid⟩
      obtain ⟨rfl,hlimit⟩ := (validateDecimalPrecision_eq_ok hp').mp hvalid
      exact ⟨rfl,hlimit⟩
    · rintro ⟨rfl,hlimit⟩
      have hin := hin (hsign ▸ hlimit)
      exact ⟨hin _ (Int.natCast_nonneg _) hle,_,⟨hin _ (Int.natCast_nonneg _) le_rfl,rfl⟩,
        (validateDecimalPrecision_eq_ok hp').mpr ⟨rfl,hlimit⟩⟩
  · simp only [hup,if_false,Bool.false_eq_true,add_zero] at hrounded ⊢
    rw [except_bind_ok,← hrounded]
    constructor
    · rintro ⟨-,hvalid⟩
      obtain ⟨rfl,hlimit⟩ := (validateDecimalPrecision_eq_ok hp').mp hvalid
      exact ⟨rfl,hlimit⟩
    · rintro ⟨rfl,hlimit⟩
      exact ⟨hin (hsign ▸ hlimit) _ (Int.natCast_nonneg _) le_rfl,(validateDecimalPrecision_eq_ok hp').mpr ⟨rfl,hlimit⟩⟩

theorem castsTo_int (value : ℤ) (hvalue : InSigned 64 value) :
    CastsTo (castToDecimal precision scale (.int64 [some value])) value precision scale := by
  intro r
  obtain ⟨⟨hp,hp'⟩,hs,hs'⟩ := h
  have hfactor := @decimalScaleI128_of_mem scale (by omega)
  have hcast : (Int64.ofInt value).toInt = value := Int64.toInt_ofInt_of_le hvalue.1 hvalue.2
  have hint : (value : ℚ) * 10 ^ scale.toInt.toNat = ((value * 10 ^ scale.toInt.toNat : ℤ) : ℚ) := by push_cast; rfl
  rw [castToDecimal,hfactor,if_neg (by simp),readRows_singleton,hint,halfAway_intCast,decimalOfInt,hfactor,hcast]
  simp only [okOr,except_bind_ok]
  rw [except_bind_eq_ok]
  simp only [validateDecimalPrecision_eq_ok hp']
  constructor
  · rintro ⟨w,hw,rfl,hlimit⟩
    obtain ⟨-,rfl⟩ := checkedSigned_eq_some.mp ((okOr_eq_ok (invalidCast_ne_ok _)).mp hw)
    exact ⟨rfl,hlimit⟩
  · rintro ⟨rfl,hlimit⟩
    have hin := inSigned_of_abs_le (hlimit.le.trans (pow_le_of_le hp'))
    exact ⟨_,(okOr_eq_ok (invalidCast_ne_ok _)).mpr (checkedSigned_of_mem hin),rfl,hlimit⟩

/-- The rescaled value as a quotient of integers. -/
theorem scaled_eq_div (v : ℤ) (hfrom : 0 ≤ fromScale.toInt) (hle : scale.toInt ≤ fromScale.toInt) :
    (v / 10 ^ fromScale.toInt.toNat * 10 ^ scale.toInt.toNat : ℚ) =
      v / ((10 ^ (fromScale.toInt - scale.toInt).toNat : ℤ) : ℚ) := by
  have hscale := h.scale_mem
  have hsplit : fromScale.toInt.toNat = (fromScale.toInt - scale.toInt).toNat + scale.toInt.toNat := by omega
  rw [hsplit,pow_add]
  push_cast
  field_simp

theorem rescaleDecimalValue_eq_ok {v r : ℤ} : rescaleDecimalValue v fromScale scale precision = .ok r ↔
    (if fromScale ≤ scale then alignDecimalValue v fromScale scale
      else roundDecimalToLowerScale v fromScale scale) = .ok r ∧ |r| < 10 ^ precision.toNat := by
  unfold rescaleDecimalValue
  split_ifs
  all_goals
    rw [except_bind_eq_ok]
    simp only [validateDecimalPrecision_eq_ok h.precision_mem.2]
    constructor
    · rintro ⟨w,hw,rfl,hfit⟩
      exact ⟨hw,hfit⟩
    · rintro ⟨hw,hfit⟩
      exact ⟨r,hw,rfl,hfit⟩

omit h in
/-- The rounding is right unless a remainder of 38 digits cannot be doubled in 128 bits. -/
theorem roundDecimalToLowerScale_eq {v : ℤ} (hv : |v| < 10 ^ 38) (hscale : 0 ≤ scale.toInt)
    (hgt : scale.toInt < fromScale.toInt) (hfrom : fromScale.toInt ≤ 38) :
    roundDecimalToLowerScale v fromScale scale = .ok
      (if fromScale.toInt - scale.toInt = 38 ∧ 2 ^ 126 ≤ |v| then 0
      else halfAway (v / ((10 ^ (fromScale.toInt - scale.toInt).toNat : ℤ) : ℚ))) := by
  obtain ⟨k,hk⟩ : ∃ k, k = (fromScale.toInt - scale.toInt).toNat := ⟨_,rfl⟩
  have hpos : (0 : ℤ) < 10 ^ k := by positivity
  have hrem : |v.tmod (10 ^ k)| < 10 ^ k := by
    rw [Int.abs_eq_natAbs,Int.natAbs_tmod]
    have hlt := Nat.mod_lt v.natAbs (Int.natAbs_pos.mpr hpos.ne')
    omega
  have hquotient : |v.tdiv (10 ^ k)| ≤ |v| := by
    rw [Int.abs_eq_natAbs,Int.abs_eq_natAbs]
    exact_mod_cast Int.natAbs_tdiv_le_natAbs v (10 ^ k)
  have htop : k = 38 → v.tdiv (10 ^ k) = 0 ∧ v.tmod (10 ^ k) = v := by
    rintro rfl
    exact tdiv_of_abs_lt hv
  have hsmall : k ≠ 38 → |v.tmod (10 ^ k)| < 2 ^ 126 := by
    intro hne
    have hpow := @pow_le_of_le k 37 (by omega)
    norm_num at hpow
    omega
  have hdouble : (checkedSigned 128 (|v.tmod (10 ^ k)| * 2)).isSome = true ↔ |v.tmod (10 ^ k)| < 2 ^ 126 := by
    have hnonneg := abs_nonneg (v.tmod (10 ^ k))
    by_cases hlt : |v.tmod (10 ^ k)| < 2 ^ 126
    · rw [checkedSigned_of_mem (by unfold InSigned; omega)]
      exact iff_of_true rfl hlt
    · rw [checkedSigned,if_neg (by unfold InSigned; omega)]
      exact iff_of_false Bool.false_ne_true hlt
  unfold roundDecimalToLowerScale
  rw [decimalAlignFactor_of_le hscale hgt.le hfrom,except_bind_ok,← hk,halfAway_div hpos]
  by_cases hdefect : fromScale.toInt - scale.toInt = 38 ∧ 2 ^ 126 ≤ |v|
  · obtain ⟨hzero,hsame⟩ := htop (by omega)
    rw [if_pos hdefect,if_neg (by rw [hdouble,hsame]; omega),hzero]
    rfl
  · have hfits : |v.tmod (10 ^ k)| < 2 ^ 126 := by
      by_cases hk38 : k = 38
      · rw [(htop hk38).2]
        omega
      · exact hsmall hk38
    rw [if_neg hdefect]
    by_cases hhalf : 10 ^ k ≤ 2 * |v.tmod (10 ^ k)|
    · have hin : InSigned 128 (v.tdiv (10 ^ k) + if v < 0 then -1 else 1) := by
        have hbounds := abs_le.mp hquotient
        have hbounds' := abs_lt.mp hv
        unfold InSigned
        split_ifs <;> omega
      rw [if_pos ⟨by omega,hdouble.mpr hfits⟩,if_pos hhalf,checkedSigned_of_mem hin]
      rfl
    · rw [if_neg (by omega),if_neg hhalf,add_zero]
      rfl

/-- A decimal of another scale is cast to its value, unless its remainder cannot be doubled. -/
theorem castsTo_decimal_iff (p : UInt8) {v : ℤ} (hv : |v| < 10 ^ 38)
    (hfrom : 0 ≤ fromScale.toInt ∧ fromScale.toInt ≤ 38) :
    CastsTo (castToDecimal precision scale (.decimal128 [some v] p fromScale)) (v / 10 ^ fromScale.toInt.toNat)
      precision scale ↔ ¬(fromScale.toInt - scale.toInt = 38 ∧ 2 ^ 126 ≤ |v|) := by
  obtain ⟨⟨hp,hp'⟩,hs,hs'⟩ := id h
  have hread : ∀ r, castToDecimal precision scale (.decimal128 [some v] p fromScale) = .ok [some r] ↔
      rescaleDecimalValue v fromScale scale precision = .ok r := fun r => readRows_singleton
  unfold CastsTo
  simp only [hread,rescaleDecimalValue_eq_ok h,Int8.le_iff_toInt_le]
  rcases le_or_gt fromScale.toInt scale.toInt with hle | hgt
  · have hexact : (v / 10 ^ fromScale.toInt.toNat * 10 ^ scale.toInt.toNat : ℚ) =
        ((v * 10 ^ (scale.toInt - fromScale.toInt).toNat : ℤ) : ℚ) := by
      have hsplit : scale.toInt.toNat = fromScale.toInt.toNat + (scale.toInt - fromScale.toInt).toNat := by omega
      rw [hsplit,pow_add]
      push_cast
      field_simp
    refine iff_of_true (fun r => and_congr_left fun hfit => ?_) (by omega)
    have hin := inSigned_of_abs_le (hfit.le.trans (pow_le_of_le hp'))
    rw [hexact,halfAway_intCast,if_pos hle,alignDecimalValue,decimalAlignFactor_of_le hfrom.1 hle (by omega),
      except_bind_ok,okOr_eq_ok (unsupportedSql_ne_ok _),checkedSigned_eq_some]
    constructor
    · rintro ⟨-,rfl⟩
      rfl
    · rintro rfl
      exact ⟨hin,rfl⟩
  · simp only [if_neg (not_le.mpr hgt),roundDecimalToLowerScale_eq hv hs hgt hfrom.2,
      scaled_eq_div h v hfrom.1 hgt.le,Except.ok.injEq]
    constructor
    · intro hcast hdefect
      simp only [if_pos hdefect] at hcast
      have hzero := ((hcast 0).mp ⟨rfl,by simp⟩).1
      have hk : (fromScale.toInt - scale.toInt).toNat = 38 := by omega
      obtain ⟨hquotient,hsame⟩ := tdiv_of_abs_lt hv
      rw [hk,halfAway_div (by decide),hquotient,hsame,if_pos (by omega)] at hzero
      split_ifs at hzero <;> omega
    · intro hgood r
      rw [if_neg hgood]
      exact and_congr_left' eq_comm

end Casts

/-- The casts of one decimal, and of texts and integers to the same type. -/
structure DecimalCasts (host : ScalarHost) (v : ℤ) (fromPrecision : UInt8) (fromScale : Int8) (precision : UInt8)
    (scale : Int8) : Prop where
  text : ∀ (text : String) (n : Numeral), n.Spells isWhitespace text.toList →
    CastsTo (castToDecimal precision scale (.utf8 [some text])) n.value precision scale
  integer : ∀ value, InSigned 64 value → CastsTo (castToDecimal precision scale (.int64 [some value])) value precision scale
  decimal : CastsTo (castToDecimal precision scale (.decimal128 [some v] fromPrecision fromScale))
    (v / 10 ^ fromScale.toInt.toNat) precision scale
  agree : ∀ (text : String) (n : Numeral), n.Spells isWhitespace text.toList →
    n.value = v / 10 ^ fromScale.toInt.toNat → ∀ r, castToDecimal precision scale (.utf8 [some text]) = .ok [some r] ↔
      castToDecimal precision scale (.decimal128 [some v] fromPrecision fromScale) = .ok [some r]
  toInteger : ∀ result, castToInt64 host (.decimal128 [some v] fromPrecision fromScale) = .ok result →
    result = [some (v.tdiv (10 ^ fromScale.toInt.toNat))] ∨ result = [some (halfAway (v / 10 ^ fromScale.toInt.toNat))]

/-- The casts are right exactly when the remainder of the decimal can be doubled and its whole part is
an integer of 64 bits; then a text and a decimal of the same value are cast alike. -/
theorem decimalCasts_iff (host : ScalarHost) {v : ℤ} (fromPrecision : UInt8) {fromScale : Int8} {precision : UInt8}
    {scale : Int8} (h : LegalDecimal precision scale) (hv : |v| < 10 ^ 38)
    (hfrom : 0 ≤ fromScale.toInt ∧ fromScale.toInt ≤ 38) :
    DecimalCasts host v fromPrecision fromScale precision scale ↔
      ¬(fromScale.toInt - scale.toInt = 38 ∧ 2 ^ 126 ≤ |v|) ∧ InSigned 64 (v.tdiv (10 ^ fromScale.toInt.toNat)) := by
  have hwhole : castToInt64 host (.decimal128 [some v] fromPrecision fromScale) =
      .ok [some (wrapSigned 64 (v.tdiv (10 ^ fromScale.toInt.toNat)))] := by
    simp only [castToInt64,decimalScaleI128_of_mem hfrom,okOr,except_bind_ok]
    rfl
  rw [← castsTo_decimal_iff h fromPrecision hv hfrom]
  constructor
  · intro hcasts
    refine ⟨hcasts.decimal,?_⟩
    have hpow : ((10 ^ fromScale.toInt.toNat : ℤ) : ℚ) = 10 ^ fromScale.toInt.toNat := by push_cast; rfl
    have hresult := hcasts.toInteger _ hwhole
    rw [← hpow,halfAway_div (by positivity)] at hresult
    simp only [List.cons.injEq,Option.some.injEq,and_true] at hresult
    unfold InSigned
    unfold wrapSigned at hresult
    rw [Int.bmod_def] at hresult
    split_ifs at hresult <;> omega
  · rintro ⟨hdecimal,hin⟩
    refine ⟨fun text n hn => castsTo_text h hn,fun value hvalue => castsTo_int h value hvalue,hdecimal,?_,
      fun result hresult => .inl ?_⟩
    · intro text n hn hvalue r
      have htext := castsTo_text h hn r
      rw [hvalue] at htext
      exact htext.trans (hdecimal r).symm
    · rw [hwhole,wrapSigned_of_mem (by decide) hin] at hresult
      exact (Except.ok.inj hresult).symm

theorem decimalCasts_thousandth : DecimalCasts asciiHost (-12345) 5 3 4 2 :=
  (decimalCasts_iff asciiHost 5 ⟨by decide,by decide⟩ (by decide) (by decide)).mpr ⟨by decide,by decide⟩

/-- 0.9 at scale 38 is cut off to 0 where the text 0.9 becomes 1, and 2^64 wraps to 0. -/
theorem decimalCasts_wrong :
    castToDecimal 1 0 (.decimal128 [some 90000000000000000000000000000000000000] 38 38) = .ok [some 0] ∧
      castToDecimal 1 0 (.utf8 [some "0.9"]) = .ok [some 1] ∧
      castToInt64 asciiHost (.decimal128 [some 18446744073709551616] 38 0) = .ok [some 0] := by
  decide +kernel

end Dodam.Sql
