import Dodam.Execution.Filter.FastLike

/-! # LIKE and the SQL relation

The verdict of `evaluate_like` on a value is the SQL relation of the pattern, for both matchers,
except that an empty pattern without escape accepts every value.
-/
namespace Dodam.Execution
open Foundation

/-- The SQL relation a LIKE asks for. ILIKE reads the escape first and compares case-folded text. -/
def LikeExpr.Matches (tables : CaseTables) (like : LikeExpr) (value : String) : Prop :=
  if like.caseInsensitive then SqlLike tables.lower like.escape like.pattern.toList (tables.fold value.toList)
  else SqlLike writeSelf like.escape like.pattern.toList value.toList

/-- No character of the pattern gains or loses the escape by lowercasing. -/
def EscapeSurvives (tables : CaseTables) (escape : Option Char) (pattern : List Char) : Prop :=
  ∀ e, escape = some e → ∀ c ∈ pattern, (c = e → tables.lower c = [e]) ∧ (e ∈ tables.lower c → c = e)

/-- Lowercasing treats each character of the pattern and of the value alone, and keeps the escapes. -/
def LikeExpr.FoldsExactly (tables : CaseTables) (like : LikeExpr) (value : String) : Prop :=
  like.caseInsensitive = true →
    tables.toLowercase value.toList = tables.fold value.toList ∧
    tables.toLowercase like.pattern.toList = tables.fold like.pattern.toList ∧
    EscapeSurvives tables like.escape like.pattern.toList

namespace CaseTables
variable (tables : CaseTables)

theorem toLowercase_eq_nil {text : List Char} : tables.toLowercase text = [] ↔ text = [] := by
  cases text with
  | nil => simp [toLowercase,toLowercaseFrom]
  | cons c text =>
    unfold toLowercase toLowercaseFrom
    split_ifs <;> simp [tables.lower_ne]

end CaseTables

theorem writeSelf_eq : writeSelf = fun c => [c] := rfl

section Escape
variable {tables : CaseTables} {escape : Option Char} {pattern : String} {chars : List Char}

theorem likePatternTokensFrom_literals {literals : List Char}
    (h : ∀ c ∈ literals, some c ≠ escape ∧ c ≠ '%' ∧ c ≠ '_') (tokens : List LikeToken) :
    likePatternTokensFrom pattern escape tokens (literals ++ chars) =
      likePatternTokensFrom pattern escape (tokens ++ literals.map .literal) chars := by
  induction literals generalizing tokens with
  | nil => rw [List.map_nil,List.append_nil,List.nil_append]
  | cons c literals ih =>
    obtain ⟨hescape,hmany,hone⟩ := h c List.mem_cons_self
    rw [List.cons_append,likePatternTokensFrom_literal hescape hmany hone,
      ih fun d hd => h d (List.mem_cons_of_mem _ hd),List.append_assoc]
    rfl

theorem getLast?_writeTokens {tokens : List LikeToken} :
    (writeTokens tables.lower tokens).getLast? = some .anyMany ↔ tokens.getLast? = some .anyMany := by
  rcases List.eq_nil_or_concat tokens with rfl | ⟨s,token,rfl⟩
  · rfl
  rw [List.concat_eq_append,writeTokens_append,List.getLast?_concat]
  cases token with
  | anyMany =>
    change (_ ++ [WildToken.anyMany]).getLast? = _ ↔ _
    rw [List.getLast?_concat]
  | anyOne =>
    change (_ ++ [WildToken.anyOne]).getLast? = _ ↔ _
    rw [List.getLast?_concat]
  | literal c =>
    obtain ⟨cs,d,hd⟩ := List.eq_nil_or_concat (tables.lower c) |>.resolve_left (tables.lower_ne c)
    rw [writeTokens_literal,hd,List.concat_eq_append,List.map_append,← List.append_assoc]
    change (_ ++ [WildToken.literal d]).getLast? = _ ↔ _
    rw [List.getLast?_concat]
    simp

theorem lower_literal {c : Char} (hsurvives : ∀ e, escape = some e → e ∈ tables.lower c → c = e)
    (hescape : some c ≠ escape) (hmany : c ≠ '%') (hone : c ≠ '_') :
    ∀ d ∈ tables.lower c, some d ≠ escape ∧ d ≠ '%' ∧ d ≠ '_' := by
  intro d hd
  refine ⟨fun he => hescape ?_,?_,?_⟩
  · rw [hsurvives d he.symm hd,he]
  · rintro rfl
    exact hmany (tables.eq_percent c hd)
  · rintro rfl
    exact hone (tables.eq_underscore c hd)

/-- An escaped character is the first character of its lowercase and the literals behind it. -/
theorem likePatternTokensFrom_escaped {e c : Char}
    (he : some e = escape) (hsurvives : (c = e → tables.lower c = [e]) ∧ (e ∈ tables.lower c → c = e))
    (tokens : List LikeToken) :
    likePatternTokensFrom pattern escape tokens (e :: (tables.lower c ++ chars)) =
      likePatternTokensFrom pattern escape (tokens ++ writeTokens tables.lower [.literal c]) chars := by
  have hone : ∀ d, tables.lower c = [d] →
      likePatternTokensFrom pattern escape tokens (e :: (tables.lower c ++ chars)) =
        likePatternTokensFrom pattern escape (tokens ++ writeTokens tables.lower [.literal c]) chars := by
    intro d hd
    rw [writeTokens_literal,hd,List.singleton_append,likePatternTokensFrom_escape he]
    rfl
  by_cases hce : c = e
  · exact hone e (hsurvives.1 hce)
  by_cases hmany : c = '%'
  · exact hone '%' (hmany ▸ tables.lower_percent)
  by_cases hunder : c = '_'
  · exact hone '_' (hunder ▸ tables.lower_underscore)
  have hplain : ∀ d ∈ tables.lower c, some d ≠ escape ∧ d ≠ '%' ∧ d ≠ '_' := by
    refine lower_literal (fun e' he' hmem => ?_) (fun hc => hce ?_) hmany hunder
    · obtain rfl : e' = e := Option.some.inj (he'.symm.trans he.symm)
      exact hsurvives.2 hmem
    · exact Option.some.inj (hc.trans he.symm)
  obtain ⟨d,ds,hd⟩ := List.exists_cons_of_ne_nil (tables.lower_ne c)
  have htail : ∀ d' ∈ ds, some d' ≠ escape ∧ d' ≠ '%' ∧ d' ≠ '_' := by
    intro d' hd'
    refine hplain d' ?_
    rw [hd]
    exact List.mem_cons_of_mem _ hd'
  rw [writeTokens_literal,hd,List.cons_append,likePatternTokensFrom_escape he,
    likePatternTokensFrom_literals htail,List.append_assoc]
  rfl

theorem likePatternTokensFrom_fold {lowered : String} (tokens : List LikeToken) (hsurvives : EscapeSurvives tables escape chars) :
    (likePatternTokensFrom lowered escape (writeTokens tables.lower tokens) (tables.fold chars)).toOption =
      (likePatternTokensFrom pattern escape tokens chars).toOption.map (writeTokens tables.lower) := by
  have hrest : ∀ {c chars}, EscapeSurvives tables escape (c :: chars) → EscapeSurvives tables escape chars :=
    fun h e he d hd => h e he d (List.mem_cons_of_mem _ hd)
  induction tokens, chars using likePatternTokensFrom.induct escape with
  | case1 tokens => rfl
  | case2 tokens ch hescape =>
    have hlower := (hsurvives ch hescape.symm ch List.mem_cons_self).1 rfl
    have hfold : tables.fold [ch] = [ch] := by rw [CaseTables.fold,List.flatMap_singleton,hlower]
    rw [hfold,likePatternTokensFrom_dangling hescape,likePatternTokensFrom_dangling hescape]
    rfl
  | case3 tokens ch hescape escaped chars ih =>
    have hlower := (hsurvives ch hescape.symm ch List.mem_cons_self).1 rfl
    have hfold : tables.fold (ch :: escaped :: chars) =
        ch :: (tables.lower escaped ++ tables.fold chars) := by
      rw [CaseTables.fold,List.flatMap_cons,List.flatMap_cons,hlower,List.singleton_append]
      rfl
    rw [hfold,likePatternTokensFrom_escaped hescape
        (hsurvives ch hescape.symm escaped (List.mem_cons_of_mem _ List.mem_cons_self)),
      ← writeTokens_append,ih (hrest (hrest hsurvives)),likePatternTokensFrom_escape hescape]
  | case4 tokens chars hescape ih =>
    have hfold : tables.fold ('%' :: chars) = '%' :: tables.fold chars := by
      rw [CaseTables.fold,List.flatMap_cons,tables.lower_percent]
      rfl
    have hpush : (if (writeTokens tables.lower tokens).getLast? = some .anyMany then
          writeTokens tables.lower tokens else writeTokens tables.lower tokens ++ [.anyMany]) =
        writeTokens tables.lower
          (if tokens.getLast? = some .anyMany then tokens else tokens ++ [.anyMany]) := by
      simp only [getLast?_writeTokens]
      split_ifs
      · rfl
      · rw [writeTokens_append]
        rfl
    rw [hfold,likePatternTokensFrom_many hescape,hpush,ih (hrest hsurvives),
      likePatternTokensFrom_many hescape]
  | case5 tokens chars hescape hmany ih =>
    have hfold : tables.fold ('_' :: chars) = '_' :: tables.fold chars := by
      rw [CaseTables.fold,List.flatMap_cons,tables.lower_underscore]
      rfl
    have hpush : writeTokens tables.lower tokens ++ [.anyOne] =
        writeTokens tables.lower (tokens ++ [.anyOne]) := by
      rw [writeTokens_append]
      rfl
    rw [hfold,likePatternTokensFrom_one hescape,hpush,ih (hrest hsurvives),
      likePatternTokensFrom_one hescape]
  | case6 tokens ch chars hescape hmany hone ih =>
    have hplain : ∀ d ∈ tables.lower ch, some d ≠ escape ∧ d ≠ '%' ∧ d ≠ '_' := lower_literal
      (fun e he => (hsurvives e he ch List.mem_cons_self).2) hescape hmany hone
    rw [CaseTables.fold,List.flatMap_cons,likePatternTokensFrom_literals hplain,← writeTokens_literal,
      ← writeTokens_append]
    rw [CaseTables.fold] at ih
    rw [ih (hrest hsurvives),likePatternTokensFrom_literal hescape hmany hone]

theorem likePatternTokens_fold {pattern : List Char} {lowered : List LikeToken}
    (hsurvives : EscapeSurvives tables escape pattern)
    (h : likePatternTokens (tables.fold pattern) escape = .ok lowered) :
    ∃ tokens, likePatternTokens pattern escape = .ok tokens ∧ lowered = writeTokens tables.lower tokens := by
  have hfold : (likePatternTokens (tables.fold pattern) escape).toOption =
      (likePatternTokens pattern escape).toOption.map (writeTokens tables.lower) := by
    exact likePatternTokensFrom_fold [] hsurvives
  rw [h] at hfold
  cases htokens : likePatternTokens pattern escape with
  | error =>
    rw [htokens] at hfold
    cases hfold
  | ok tokens =>
    rw [htokens] at hfold
    exact ⟨tokens,rfl,Option.some.inj hfold⟩

theorem likePatternTokens_none (pattern : List Char) :
    ∃ tokens, likePatternTokens pattern none = .ok tokens := by
  suffices h : ∀ (text : String) (chars : List Char) (tokens : List LikeToken),
      ∃ result, likePatternTokensFrom text none tokens chars = .ok result from h _ _ _
  intro text chars
  induction chars with
  | nil => exact fun tokens => ⟨tokens,rfl⟩
  | cons c chars ih =>
    intro tokens
    have hescape : some c ≠ (none : Option Char) := Option.some_ne_none c
    by_cases hmany : c = '%'
    · rw [hmany,likePatternTokensFrom_many (Option.some_ne_none _)]
      exact ih _
    by_cases hone : c = '_'
    · rw [hone,likePatternTokensFrom_one (Option.some_ne_none _)]
      exact ih _
    rw [likePatternTokensFrom_literal hescape hmany hone]
    exact ih _

end Escape

section Correct
variable (finder : Searcher UInt8) (tables : CaseTables)

/-- The matcher a call runs, on the normalized pattern and values. -/
theorem evaluateLike_matcher {column : LikeColumn} {like : LikeExpr} {values : List (Option String)}
    {mask : List (Option Bool)} (hvalues : column.values = some values)
    (h : evaluateLike finder tables column like = .ok mask) :
    ∃ matched : List Char → Bool,
      (mask = values.map fun value => value.map fun value =>
        let text := if like.caseInsensitive then tables.toLowercase value.toList else value.toList
        if like.negated then !matched text else matched text) ∧
      let pattern := if like.caseInsensitive then tables.toLowercase like.pattern.toList
        else like.pattern.toList
      (∃ tokens, likePatternTokens pattern like.escape = .ok tokens) ∧
      (pattern = [] → like.escape = none → ∀ text, matched text = true) ∧
      (pattern ≠ [] ∨ like.escape ≠ none → ∀ text, matched text = true ↔
        SqlLike writeSelf like.escape pattern text) := by
  unfold evaluateLike evaluateLikeValues at h
  rw [hvalues] at h
  dsimp only at h ⊢
  generalize (if like.caseInsensitive = true then tables.toLowercase like.pattern.toList
    else like.pattern.toList) = pattern at h ⊢
  cases hfast : fastLikePattern pattern like.escape with
  | some fast =>
    rw [hfast] at h
    cases h
    have hescape : like.escape = none := by
      unfold fastLikePattern at hfast
      split_ifs at hfast with hslow
      rw [not_or,Bool.not_eq_true,Option.isSome_eq_false_iff,Option.isNone_iff_eq_none] at hslow
      exact hslow.1
    refine ⟨fast.matches finder,rfl,?_,?_,?_⟩
    · rw [hescape]
      exact likePatternTokens_none pattern
    · rintro rfl - text
      rw [hescape,fastLikePattern_nil] at hfast
      cases hfast
      rfl
    · intro hor
      refine fastLikePattern_matches finder hfast fun hnil => ?_
      exact hor.elim (fun hp => hp hnil) fun he => he hescape
  | none =>
    rw [hfast] at h
    obtain ⟨tokens,htokens,hmask⟩ := except_bind_eq_ok.mp h
    cases hmask
    refine ⟨fun text => likeMatches text tokens,rfl,⟨tokens,htokens⟩,?_,?_⟩
    · rintro rfl hescape text
      rw [hescape,fastLikePattern_nil] at hfast
      cases hfast
    · intro _ text
      rw [likeMatches_iff,← likePatternTokens_ok htokens,writeSelf_eq,writeTokens_self]

theorem sqlLike_normalized {like : LikeExpr} {value : String} (h : like.FoldsExactly tables value)
    (hok : ∃ tokens, likePatternTokens (if like.caseInsensitive then
      tables.toLowercase like.pattern.toList else like.pattern.toList) like.escape = .ok tokens) :
    SqlLike writeSelf like.escape
        (if like.caseInsensitive then tables.toLowercase like.pattern.toList else like.pattern.toList)
        (if like.caseInsensitive then tables.toLowercase value.toList else value.toList) ↔
      like.Matches tables value := by
  unfold LikeExpr.Matches
  split_ifs with hcase
  · obtain ⟨hvalue,hpattern,hsurvives⟩ := h hcase
    obtain ⟨lowered,hlowered⟩ := hok
    rw [if_pos hcase,hpattern] at hlowered
    obtain ⟨tokens,htokens,rfl⟩ := likePatternTokens_fold hsurvives hlowered
    rw [hvalue,hpattern,← likePatternTokens_ok hlowered,writeSelf_eq,writeTokens_self,
      likePatternTokens_ok htokens]
  · exact Iff.rfl

/-- An accepted LIKE gives a value the verdict of the SQL relation, unless the pattern is empty, has
no escape, and the value is not empty. -/
theorem evaluateLike_iff {column : LikeColumn} {like : LikeExpr} {values : List (Option String)}
    {mask : List (Option Bool)} (hvalues : column.values = some values)
    (h : evaluateLike finder tables column like = .ok mask) {i : ℕ} {value : String}
    (hvalue : values[i]? = some (some value)) (hfolds : like.FoldsExactly tables value) :
    (mask[i]? = some (some true) ↔ (like.negated = false ↔ like.Matches tables value)) ↔
      like.pattern ≠ "" ∨ like.escape ≠ none ∨ value = "" := by
  obtain ⟨matched,hmask,hok,hempty,hlike⟩ := evaluateLike_matcher finder tables hvalues h
  rw [← sqlLike_normalized tables hfolds hok]
  have hpattern : (if like.caseInsensitive then tables.toLowercase like.pattern.toList
      else like.pattern.toList) = [] ↔ like.pattern = "" := by
    split_ifs
    · rw [tables.toLowercase_eq_nil,String.toList_eq_nil_iff]
    · exact String.toList_eq_nil_iff
  have htext : (if like.caseInsensitive then tables.toLowercase value.toList else value.toList) = [] ↔
      value = "" := by
    split_ifs
    · rw [tables.toLowercase_eq_nil,String.toList_eq_nil_iff]
    · exact String.toList_eq_nil_iff
  rw [hmask,List.getElem?_map,hvalue]
  dsimp only [Option.map_some]
  generalize (if like.caseInsensitive = true then tables.toLowercase like.pattern.toList
    else like.pattern.toList) = pattern at hempty hlike hpattern ⊢
  generalize (if like.caseInsensitive = true then tables.toLowercase value.toList
    else value.toList) = text at htext ⊢
  by_cases hall : pattern = [] ∧ like.escape = none
  · rw [hempty hall.1 hall.2 text,hall.1,sqlLike_nil,htext,hpattern.mp hall.1,hall.2]
    cases like.negated <;> simp
  · have hor : pattern ≠ [] ∨ like.escape ≠ none := by
      by_contra hn
      rw [not_or,not_not,not_not] at hn
      exact hall hn
    refine iff_of_true ?_ ?_
    · rw [← hlike hor text]
      cases like.negated <;> simp
    · rw [← or_assoc,Ne,← hpattern]
      exact Or.inl hor

end Correct

section Ascii

theorem eq_of_toLower_eq {c d : Char} (h : c.toLower = d) (hd : d.val.toNat < 97) : c = d := by
  unfold Char.toLower at h
  split at h
  · next hupper =>
    obtain ⟨hlow,hhigh⟩ := hupper
    have hval : (c.val + ('a'.val - 'A'.val)).toNat = d.val.toNat := by rw [← h]
    have hlow' : 65 ≤ c.val.toNat := hlow
    have hhigh' : c.val.toNat ≤ 90 := hhigh
    have hstep : ('a'.val - 'A'.val).toNat = 32 := rfl
    rw [UInt32.toNat_add,hstep,Nat.mod_eq_of_lt (by omega)] at hval
    omega
  · exact h

def asciiTables : CaseTables where
  lower c := [c.toLower]
  cased c := c.isAlpha
  caseIgnorable c := c = '.' ∨ c = ':' ∨ c = '^' ∨ c.toNat = 39 ∨ c.toNat = 96
  lower_ne _ := List.cons_ne_nil _ _
  lower_percent := rfl
  lower_underscore := rfl
  eq_percent _ h := eq_of_toLower_eq (List.mem_singleton.mp h).symm (by decide)
  eq_underscore _ h := eq_of_toLower_eq (List.mem_singleton.mp h).symm (by decide)

theorem evaluateLike_iff_ascii :
    (([some true] : List (Option Bool))[0]? = some (some true) ↔
      (false = false ↔ (⟨"name","a%B",false,none,true⟩ : LikeExpr).Matches asciiTables "Ab")) ↔
      "a%B" ≠ "" ∨ (none : Option Char) ≠ none ∨ "Ab" = "" :=
  evaluateLike_iff (scanSearcher UInt8) asciiTables
    (show (LikeColumn.utf8 [some "Ab"]).values = some [some "Ab"] from rfl)
    (show evaluateLike (scanSearcher UInt8) asciiTables (.utf8 [some "Ab"]) ⟨"name","a%B",false,none,true⟩ =
      .ok [some true] by decide) rfl
    (fun _ => ⟨by decide,by decide,fun e he => by cases he⟩)

/-- The empty pattern accepts `a`, and an uppercase escape is lost to ILIKE. -/
theorem evaluateLike_not_sqlLike :
    (evaluateLike (scanSearcher UInt8) asciiTables (.utf8 [some "a"]) ⟨"name","",false,none,false⟩ =
        .ok [some true] ∧
      ¬ (⟨"name","",false,none,false⟩ : LikeExpr).Matches asciiTables "a") ∧
    (evaluateLike (scanSearcher UInt8) asciiTables (.utf8 [some "%"]) ⟨"name","X%",false,some 'X',true⟩ =
        .ok [some false] ∧
      (⟨"name","X%",false,some 'X',true⟩ : LikeExpr).Matches asciiTables "%") := by
  refine ⟨⟨by decide,fun h => ?_⟩,by decide,?_⟩
  · exact List.cons_ne_nil _ _ (sqlLike_nil.mp h)
  · exact .escaped rfl .done

end Ascii
end Dodam.Execution
