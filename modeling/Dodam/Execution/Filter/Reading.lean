import Dodam.Execution.Filter.Literal

/-! # What a literal denotes

An accepted decimal text spells a numeral, and the integer read from it is the
scaled value of that numeral truncated toward zero.
-/
namespace Dodam.Execution
open Foundation

theorem okOr_eq_ok {α : Type} {value : Option α} {error : Result α} {a : α}
    (herror : ∀ b, error ≠ .ok b) : okOr value error = .ok a ↔ value = some a := by
  cases value with
  | none => simp [okOr,herror]
  | some b => simp [okOr]

theorem invalidFilter_ne_ok {α : Type} (message : String) (a : α) :
    (invalidFilter message : Result α) ≠ .ok a := by
  rintro ⟨⟩

variable {k scale : ℕ} {v r : ℤ} {text : List Char} {value column : String}

theorem timesTen_ok {error : Result ℤ} (herror : ∀ b, error ≠ .ok b)
    (hv : InSigned 128 v) (h : (List.range k).foldlM (fun value _ =>
      okOr (checkedSigned 128 (value * 10)) error) v = .ok r) : r = v * 10 ^ k ∧ InSigned 128 r := by
  have hinv := foldlM_ok_inv (fun (seen : List ℕ) value => value = v * 10 ^ seen.length ∧ InSigned 128 value)
    ⟨by simp,hv⟩ (fun seen _ s s' hs hstep => ?_) h
  · simpa using hinv
  · obtain ⟨hin,rfl⟩ := checkedSigned_eq_some.mp ((okOr_eq_ok herror).mp hstep)
    rw [List.length_append,List.length_singleton,pow_succ,← mul_assoc,← hs.1]
    exact ⟨rfl,hin⟩

theorem timesTen_of_mem {error : Result ℤ} (hv : 0 ≤ v) (h : InSigned 128 (v * 10 ^ k)) :
    (List.range k).foldlM (fun value _ => okOr (checkedSigned 128 (value * 10)) error) v = .ok (v * 10 ^ k) := by
  induction k with
  | zero =>
    rw [pow_zero,mul_one]
    rfl
  | succ k ih =>
    have hnonneg : 0 ≤ v * 10 ^ k := by positivity
    have hnext : v * 10 ^ (k + 1) = v * 10 ^ k * 10 := by ring
    rw [hnext] at h
    have hprefix : InSigned 128 (v * 10 ^ k) := inSigned_of_le hnonneg (by linarith) h
    rw [List.range_succ,List.foldlM_append,ih hprefix,hnext]
    have hlast : okOr (checkedSigned 128 (v * 10 ^ k * 10)) error = .ok (v * 10 ^ k * 10) := by
      rw [checkedSigned_of_mem h]
      rfl
    exact bind_eq_ok_iff.mpr ⟨_,rfl,bind_eq_ok_iff.mpr ⟨_,hlast,rfl⟩⟩

theorem decimalScaleFactor_of_mem (h : InSigned 128 (10 ^ scale)) :
    decimalScaleFactor scale = .ok (10 ^ scale) := by
  have hone : (1 : ℤ) * 10 ^ scale = 10 ^ scale := one_mul _
  rw [← hone]
  exact timesTen_of_mem (by decide) (by rwa [hone])

theorem decimalScaleFactor_ok {factor : ℤ} (h : decimalScaleFactor scale = .ok factor) :
    factor = 10 ^ scale ∧ InSigned 128 factor := by
  obtain ⟨rfl,hin⟩ := timesTen_ok (invalidFilter_ne_ok _) (by decide) h
  rw [one_mul] at hin ⊢
  exact ⟨rfl,hin⟩

theorem isDigit_ne {c : Char} (h : c.isDigit = true) : c ≠ '-' ∧ c ≠ '+' ∧ c ≠ '.' := by
  refine ⟨?_,?_,?_⟩
  all_goals
    rintro rfl
    cases h

theorem parseDigits_digits (hne : text ≠ []) (h : ∀ c ∈ text, c.isDigit = true) :
    parseDigits text = some (digitsValue text) := if_pos ⟨hne,List.all_eq_true.mpr h⟩

theorem parseSigned_digits (w : ℕ) (hne : text ≠ [])
    (h : ∀ c ∈ text, c.isDigit = true) : parseSigned w text = checkedSigned w (digitsValue text) := by
  have hparse := parseDigits_digits hne h
  cases text with
  | nil => exact absurd rfl hne
  | cons c rest =>
    obtain ⟨hminus,hplus,-⟩ := isDigit_ne (h c (by simp))
    unfold parseSigned
    split
    · next heq => cases heq; exact absurd rfl hminus
    · next heq => cases heq; exact absurd rfl hplus
    · rw [hparse]
      rfl

theorem toList_toString_ofNat (m : ℕ) : (toString (Int.ofNat m)).toList = Nat.toDigits 10 m := String.toList_ofList

theorem toList_toString_negSucc (m : ℕ) : (toString (Int.negSucc m)).toList = '-' :: Nat.toDigits 10 (m + 1) := by
  change ("-" ++ Nat.repr (m + 1)).toList = _
  rw [String.toList_append]
  exact congrArg ('-' :: ·) String.toList_ofList

theorem isDigit_toDigits {m : ℕ} : ∀ c ∈ Nat.toDigits 10 m, c.isDigit = true :=
  fun _ => Nat.isDigit_of_mem_toDigits (by decide) (by decide)

theorem digitsValue_toDigits (m : ℕ) : digitsValue (Nat.toDigits 10 m) = m := Nat.ofDigitChars_ten_toDigits

theorem parseSigned_toString {w : ℕ} {n : ℤ} (h : InSigned w n) : parseSigned w (toString n).toList = some n := by
  cases n with
  | ofNat m =>
    rw [toList_toString_ofNat,parseSigned_digits w Nat.toDigits_ne_nil isDigit_toDigits,digitsValue_toDigits]
    exact checkedSigned_of_mem h
  | negSucc m =>
    have hparse : parseDigits (Nat.toDigits 10 (m + 1)) = some (m + 1) := by
      rw [parseDigits_digits Nat.toDigits_ne_nil isDigit_toDigits,digitsValue_toDigits]
    rw [toList_toString_negSucc]
    change ((parseDigits (Nat.toDigits 10 (m + 1))).map fun n => -(n : ℤ)).bind (checkedSigned w) = _
    rw [hparse]
    exact checkedSigned_of_mem h

theorem parseSigned_fraction {digits : List Char} (h : ∀ c ∈ digits, c.isDigit = true)
    (hin : InSigned 128 (digitsValue digits)) : (parseSigned 128 digits).getD 0 = digitsValue digits := by
  by_cases hne : digits = []
  · rw [hne]
    rfl
  · rw [parseSigned_digits 128 hne h,checkedSigned_of_mem hin]
    rfl

theorem stripSign_split (value : List Char) :
    ∃ sign, value = sign ++ stripSign value ∧
      if decide (value.head? = some '-') then sign = ['-'] else sign = [] ∨ sign = ['+'] := by
  unfold stripSign
  split
  · exact ⟨['-'],rfl,rfl⟩
  · exact ⟨['+'],rfl,Or.inr rfl⟩
  · next hminus hplus =>
    refine ⟨[],rfl,?_⟩
    rw [if_neg]
    · exact Or.inl rfl
    · intro hhead
      rw [decide_eq_true_eq] at hhead
      cases value with
      | nil => cases hhead
      | cons c rest =>
        rw [List.head?_cons,Option.some.injEq] at hhead
        exact hminus rest (by rw [hhead])

theorem stripSign_append {sign rest : List Char} (hsign : sign = ['-'] ∨ sign = [] ∨ sign = ['+'])
    (hrest : ∀ c ∈ rest.head?, c.isDigit = true) : stripSign (sign ++ rest) = rest := by
  rcases hsign with rfl | rfl | rfl
  · rfl
  · cases rest with
    | nil => rfl
    | cons c rest =>
      obtain ⟨hminus,hplus,-⟩ := isDigit_ne (hrest c rfl)
      rw [List.nil_append]
      unfold stripSign
      split
      · next heq => cases heq; exact absurd rfl hminus
      · next heq => cases heq; exact absurd rfl hplus
      · rfl
  · rfl

theorem splitPoint_cases (unsigned : List Char) :
    ∃ whole fractional point, (splitOnce '.' unsigned).getD (unsigned,[]) = (whole,fractional) ∧
      unsigned = whole ++ point ∧ (point = '.' :: fractional ∨ (point = [] ∧ fractional = [])) := by
  cases hs : splitOnce '.' unsigned with
  | none => exact ⟨unsigned,[],[],rfl,(List.append_nil _).symm,Or.inr ⟨rfl,rfl⟩⟩
  | some p => exact ⟨p.1,p.2,'.' :: p.2,rfl,(splitOnce_eq_some.mp hs).1,Or.inl rfl⟩

theorem decimalParts_spells {negative : Bool} {whole fractional : List Char}
    (h : decimalParts (trim text) = some (negative,whole,fractional)) :
    ∃ n : Numeral, n.Spells isWhitespace text ∧ n.negative = negative ∧ n.whole = whole ∧
      n.fractional = fractional := by
  obtain ⟨pre,post,htext,hpre,hpost⟩ := trimBy_split isWhitespace text
  obtain ⟨sign,hvalue,hsign⟩ := stripSign_split (trim text)
  obtain ⟨w,f,point,hget,hunsigned,hpoint⟩ := splitPoint_cases (stripSign (trim text))
  unfold decimalParts at h
  dsimp only at h
  rw [hget] at h
  split_ifs at h with hw hf
  obtain ⟨rfl,rfl,rfl⟩ := h
  rw [not_or,not_not] at hw
  refine ⟨⟨_,w,f,by simpa using hw.1,List.all_eq_true.mp hw.2,List.all_eq_true.mp hf⟩,
    ⟨pre,sign,point,post,?_,hpre,hpost,hsign,hpoint⟩,rfl,rfl,rfl⟩
  rw [List.append_assoc sign,← hunsigned,← hvalue]
  exact htext

theorem isWhitespace_of_numeral {c : Char} (h : c.isDigit = true ∨ c = '-' ∨ c = '+' ∨ c = '.') :
    isWhitespace c = false := by
  have hn : (48 ≤ c.toNat ∧ c.toNat ≤ 57) ∨ c.toNat = 45 ∨ c.toNat = 43 ∨ c.toNat = 46 := by
    rcases h with h | rfl | rfl | rfl
    · exact Or.inl (Char.isDigit_iff_toNat.mp h)
    · exact Or.inr (Or.inl rfl)
    · exact Or.inr (Or.inr (Or.inl rfl))
    · exact Or.inr (Or.inr (Or.inr rfl))
  unfold isWhitespace
  simp only [Bool.or_eq_false_iff,Bool.and_eq_false_iff,decide_eq_false_iff_not]
  omega

theorem decimalParts_of_spells {n : Numeral} (h : n.Spells isWhitespace text) :
    decimalParts (trim text) = some (n.negative,n.whole,n.fractional) := by
  obtain ⟨pre,sign,point,post,rfl,hpre,hpost,hsign,hpoint⟩ := h
  have hsigns : sign = ['-'] ∨ sign = [] ∨ sign = ['+'] := by
    split_ifs at hsign
    · exact Or.inl hsign
    · exact Or.inr hsign
  have hnodot : '.' ∉ n.whole := fun hm => (isDigit_ne (n.whole_digits _ hm)).2.2 rfl
  have htrim : trim (pre ++ (sign ++ n.whole ++ point) ++ post) = sign ++ n.whole ++ point := by
    refine trimBy_append _ hpre (fun c hc => isWhitespace_of_numeral ?_) hpost
    rw [List.mem_append,List.mem_append] at hc
    rcases hc with (hc | hc) | hc
    · rcases hsigns with rfl | rfl | rfl
      · exact Or.inr (Or.inl (List.mem_singleton.mp hc))
      · exact absurd hc List.not_mem_nil
      · exact Or.inr (Or.inr (Or.inl (List.mem_singleton.mp hc)))
    · exact Or.inl (n.whole_digits c hc)
    · rcases hpoint with rfl | ⟨rfl,-⟩
      · rcases List.mem_cons.mp hc with rfl | hc
        · exact Or.inr (Or.inr (Or.inr rfl))
        · exact Or.inl (n.fractional_digits c hc)
      · exact absurd hc List.not_mem_nil
  obtain ⟨first,others,hwhole⟩ := List.exists_cons_of_ne_nil n.whole_ne
  have hfirst : first.isDigit = true := n.whole_digits first (by rw [hwhole]; exact List.mem_cons_self)
  have hstrip : stripSign (sign ++ n.whole ++ point) = n.whole ++ point := by
    rw [List.append_assoc]
    refine stripSign_append hsigns fun c hc => ?_
    rw [hwhole] at hc
    cases hc
    exact hfirst
  have hsplit : (splitOnce '.' (n.whole ++ point)).getD (n.whole ++ point,[]) = (n.whole,n.fractional) := by
    rcases hpoint with rfl | ⟨rfl,hf⟩
    · rw [splitOnce_append hnodot]
      rfl
    · rw [List.append_nil,splitOnce_eq_none.mpr hnodot,hf]
      rfl
  have hneg : decide ((sign ++ n.whole ++ point).head? = some '-') = n.negative := by
    rw [hwhole]
    cases hn : n.negative with
    | true =>
      rw [hn,if_pos rfl] at hsign
      rw [hsign]
      rfl
    | false =>
      rw [hn,if_neg Bool.false_ne_true] at hsign
      rcases hsign with rfl | rfl
      · exact decide_eq_false fun hh => (isDigit_ne hfirst).1 (Option.some.inj hh)
      · rfl
  unfold decimalParts
  dsimp only
  rw [htrim,hstrip,hsplit]
  dsimp only
  rw [if_neg,if_neg,hneg]
  · exact not_not.mpr (List.all_eq_true.mpr n.fractional_digits)
  · rw [not_or,not_not]
    exact ⟨by simpa using n.whole_ne,List.all_eq_true.mpr n.whole_digits⟩

theorem spells_unique {n n' : Numeral} (h : n.Spells isWhitespace text)
    (h' : n'.Spells isWhitespace text) : n.value = n'.value := by
  have hp := (decimalParts_of_spells h).symm.trans (decimalParts_of_spells h')
  simp only [Option.some.injEq,Prod.mk.injEq] at hp
  exact Numeral.value_congr hp.1 hp.2.1 hp.2.2

theorem digitsValue_take_mem {n : Numeral} (hscale : InSigned 128 (10 ^ scale)) :
    InSigned 128 (digitsValue (n.fractional.take scale)) := by
  have hlt : digitsValue (n.fractional.take scale) < 10 ^ (n.fractional.take scale).length :=
    digitsValue_lt fun c hc => n.fractional_digits c (List.mem_of_mem_take hc)
  have hlen : 10 ^ (n.fractional.take scale).length ≤ 10 ^ scale :=
    Nat.pow_le_pow_right (by norm_num) (List.length_take_le ..)
  have hz : (digitsValue (n.fractional.take scale) : ℤ) < 10 ^ scale := by
    exact_mod_cast hlt.trans_le hlen
  exact ⟨(by norm_num : (-2 ^ (128 - 1) : ℤ) ≤ 0).trans (Int.natCast_nonneg _),hz.trans hscale.2⟩

/-- The digits up to the scale are put together exactly where their number fits. -/
theorem keptDigits_eq_ok (hscale : InSigned 128 (10 ^ scale)) (n : Numeral) {unreadable overflow : Result ℤ}
    (hunreadable : ∀ b, unreadable ≠ .ok b) (hoverflow : ∀ b, overflow ≠ .ok b) {next : ℤ → Result ℤ} :
    (do let whole ← okOr (parseSigned 128 n.whole) unreadable
        let result ← okOr (checkedSigned 128 (whole * 10 ^ scale)) overflow
        let fractionalValue ← (List.range (scale - (n.fractional.take scale).length)).foldlM (fun value _ =>
          okOr (checkedSigned 128 (value * 10)) overflow) ((parseSigned 128 (n.fractional.take scale)).getD 0)
        let result ← okOr (checkedSigned 128 (result + fractionalValue)) overflow
        next result) = .ok r ↔ InSigned 128 (n.kept scale) ∧ next (n.kept scale) = .ok r := by
  have hfraction : ∀ c ∈ n.fractional.take scale, c.isDigit = true :=
    fun c hc => n.fractional_digits c (List.mem_of_mem_take hc)
  have hkept := digitsValue_take_mem (n := n) hscale
  obtain ⟨k,hk⟩ : ∃ k, k = scale - (n.fractional.take scale).length := ⟨_,rfl⟩
  have hsum : (n.kept scale : ℤ) = digitsValue n.whole * 10 ^ scale + digitsValue (n.fractional.take scale) * 10 ^ k := by
    rw [hk,Numeral.kept]
    push_cast
    rfl
  have hwhole : (0 : ℤ) ≤ digitsValue n.whole := Int.natCast_nonneg _
  have hscaled : (digitsValue n.whole : ℤ) ≤ digitsValue n.whole * 10 ^ scale :=
    le_mul_of_one_le_right hwhole (one_le_pow₀ (by decide))
  have hrest : (0 : ℤ) ≤ digitsValue (n.fractional.take scale) * 10 ^ k := by positivity
  simp only [except_bind_eq_ok,okOr_eq_ok hunreadable,okOr_eq_ok hoverflow,parseSigned_digits 128 n.whole_ne n.whole_digits,
    parseSigned_fraction hfraction hkept,← hk,checkedSigned_eq_some]
  constructor
  · rintro ⟨_,⟨-,rfl⟩,_,⟨-,rfl⟩,fraction,hfold,_,⟨hmem,rfl⟩,hnext⟩
    obtain ⟨rfl,-⟩ := timesTen_ok hoverflow hkept hfold
    rw [← hsum] at hmem hnext
    exact ⟨hmem,hnext⟩
  · rintro ⟨hmem,hnext⟩
    rw [hsum] at hmem hnext
    exact ⟨_,⟨inSigned_of_le hwhole (by linarith) hmem,rfl⟩,_,⟨inSigned_of_le (hwhole.trans hscaled) (by linarith) hmem,rfl⟩,_,
      timesTen_of_mem (Int.natCast_nonneg _) (inSigned_of_le hrest (by linarith) hmem),_,⟨hmem,rfl⟩,hnext⟩

theorem take_min_length (digits : List Char) (scale : ℕ) :
    digits.take (min digits.length scale) = digits.take scale := by
  rw [min_comm,← List.take_eq_take_min]

/-- What a decimal text is read as, when it is: the digits kept at the scale, where they fit. -/
theorem decimalStringAsI128_iff :
    decimalStringAsI128 value scale column = .ok r ↔ InSigned 128 (10 ^ scale) ∧
      ∃ n : Numeral, n.Spells isWhitespace value.toList ∧ InSigned 128 (n.kept scale) ∧
        r = if n.negative then -(n.kept scale : ℤ) else n.kept scale := by
  have herror : ∀ b : ℤ, invalidComparison column (String.ofList (trim value.toList)) ≠ .ok b :=
    fun b => invalidFilter_ne_ok _ b
  unfold decimalStringAsI128
  dsimp only
  constructor
  · intro h
    split_ifs at h with hempty
    · exact absurd h (herror r)
    · cases hparts : decimalParts (trim value.toList) with
      | none =>
        rw [hparts] at h
        exact absurd h (herror r)
      | some parts =>
        obtain ⟨negative,whole,fractional⟩ := parts
        obtain ⟨n,hspells,rfl,rfl,rfl⟩ := decimalParts_spells hparts
        rw [hparts] at h
        obtain ⟨_,-,hrest⟩ := except_bind_eq_ok.mp h
        obtain ⟨factor,hfactor,-⟩ := except_bind_eq_ok.mp hrest
        obtain ⟨rfl,hscale⟩ := decimalScaleFactor_ok hfactor
        simp only [take_min_length,decimalScaleFactor_of_mem hscale,except_bind_ok] at h
        obtain ⟨hmem,hr⟩ := (keptDigits_eq_ok hscale n herror herror).mp h
        exact ⟨hscale,n,hspells,hmem,(Except.ok.inj hr).symm⟩
  · rintro ⟨hscale,n,hspells,hmem,rfl⟩
    have hparts := decimalParts_of_spells hspells
    have hempty : ¬ (trim value.toList).isEmpty = true := by
      intro hempty
      rw [List.isEmpty_iff.mp hempty] at hparts
      cases hparts
    rw [if_neg hempty,hparts]
    simp only [take_min_length,decimalScaleFactor_of_mem hscale,except_bind_ok]
    exact (keptDigits_eq_ok hscale n herror herror).mpr ⟨hmem,rfl⟩

theorem decimalStringAsI128_ok (h : decimalStringAsI128 value scale column = .ok r) :
    ∃ n : Numeral, n.Spells isWhitespace value.toList ∧
      r = if n.negative then -(n.kept scale : ℤ) else n.kept scale := by
  obtain ⟨-,n,hspells,-,hr⟩ := decimalStringAsI128_iff.mp h
  exact ⟨n,hspells,hr⟩

end Dodam.Execution
