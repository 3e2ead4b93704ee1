import Dodam.Sql.PredicateEval

/-! # LIKE on the vector path

A pattern that is a text between wildcards matches by equality, prefix, suffix or
infix what its tokens match, also when the text alone is lowercased.
-/
namespace Dodam.Sql
open Foundation Execution CaseTables

section Tokens

def likeToken (c : Char) : LikeToken := if c = '%' then .anyMany else if c = '_' then .anyOne else .literal c

theorem scalarLikePatternTokens_none (pattern : List Char) :
    scalarLikePatternTokens none pattern = .ok (pattern.map likeToken) := by
  induction pattern with
  | nil => rfl
  | cons c pattern ih =>
    rw [scalarLikePatternTokens.eq_def]
    simp only
    rw [if_neg (Option.some_ne_none c),ih]
    rfl

theorem map_likeToken {pattern : List Char} (hmany : '%' ∉ pattern) (hone : '_' ∉ pattern) :
    pattern.map likeToken = pattern.map .literal := by
  refine List.map_congr_left fun c hc => ?_
  have hc1 : c ≠ '%' := fun h => hmany (h ▸ hc)
  have hc2 : c ≠ '_' := fun h => hone (h ▸ hc)
  rw [likeToken,if_neg hc1,if_neg hc2]

theorem scalarLikeMatches_iff (tokens : List LikeToken) (value : List Char) :
    scalarLikeMatches tokens value = true ↔ Likes tokens value := by
  induction tokens generalizing value with
  | nil => exact List.isEmpty_iff
  | cons token tokens ih =>
    cases token with
    | literal c =>
      rw [scalarLikeMatches,likes_literal,Bool.and_eq_true,decide_eq_true_iff]
      constructor
      · rintro ⟨hhead,htail⟩
        cases value with
        | nil => cases hhead
        | cons d value => exact ⟨value,by rw [Option.some.inj hhead],(ih value).mp htail⟩
      · rintro ⟨rest,rfl,hrest⟩
        exact ⟨rfl,(ih rest).mpr hrest⟩
    | anyOne =>
      rw [scalarLikeMatches,likes_anyOne,Bool.and_eq_true]
      constructor
      · rintro ⟨hne,htail⟩
        cases value with
        | nil => cases hne
        | cons d value => exact ⟨d,value,rfl,(ih value).mp htail⟩
      · rintro ⟨d,rest,rfl,hrest⟩
        exact ⟨rfl,(ih rest).mpr hrest⟩
    | anyMany =>
      rw [scalarLikeMatches,likes_anyMany,List.any_eq_true]
      constructor
      · rintro ⟨rest,hmem,hrest⟩
        obtain ⟨gap,he⟩ := (List.mem_tails rest value).mp hmem
        exact ⟨gap,rest,he.symm,(ih rest).mp hrest⟩
      · rintro ⟨gap,rest,rfl,hrest⟩
        exact ⟨rest,(List.mem_tails _ _).mpr (List.suffix_append gap rest),(ih rest).mpr hrest⟩

variable {text value : List Char}

theorem likes_exact : Likes (text.map .literal) value ↔ value = text := by
  have h : Likes (text.map .literal ++ []) value ↔ ∃ rest, value = text ++ rest ∧ Likes [] rest := likes_literals
  rw [List.append_nil] at h
  rw [h]
  constructor
  · rintro ⟨rest,rfl,rfl⟩
    exact List.append_nil _
  · rintro rfl
    exact ⟨[],(List.append_nil _).symm,rfl⟩

theorem likes_prefixed : Likes (text.map .literal ++ [.anyMany]) value ↔ text <+: value := by
  rw [likes_literals]
  constructor
  · rintro ⟨rest,rfl,-⟩
    exact List.prefix_append text rest
  · rintro ⟨rest,rfl⟩
    exact ⟨rest,rfl,likes_singleton.mpr trivial⟩

theorem likes_suffixed : Likes (.anyMany :: text.map .literal) value ↔ text <:+ value := by
  rw [likes_anyMany]
  constructor
  · rintro ⟨gap,rest,rfl,h⟩
    rw [likes_exact.mp h]
    exact List.suffix_append gap text
  · rintro ⟨gap,rfl⟩
    exact ⟨gap,text,rfl,likes_exact.mpr rfl⟩

theorem likes_contains : Likes (.anyMany :: (text.map .literal ++ [.anyMany])) value ↔ text <:+: value := by
  rw [likes_anyMany]
  constructor
  · rintro ⟨gap,rest,rfl,h⟩
    obtain ⟨behind,rfl⟩ := likes_prefixed.mp h
    exact ⟨gap,behind,by rw [List.append_assoc]⟩
  · rintro ⟨gap,behind,rfl⟩
    exact ⟨gap,text ++ behind,by rw [List.append_assoc],likes_prefixed.mpr (List.prefix_append text behind)⟩

end Tokens

section Lowercase
variable {tables : CaseTables}

/-- A wildcard is no letter and does not join letters, so it bounds words as the end of the text does. -/
structure PercentIsNoLetter (tables : CaseTables) : Prop where
  not_cased : tables.cased '%' = false
  not_ignorable : tables.caseIgnorable '%' = false

theorem caseIgnorableThenCased_percent (h : PercentIsNoLetter tables) (text : List Char) :
    tables.caseIgnorableThenCased (text ++ ['%']) = tables.caseIgnorableThenCased text := by
  induction text with
  | nil =>
    rw [caseIgnorableThenCased,caseIgnorableThenCased,List.nil_append,
      List.dropWhile_cons_of_neg (by rw [h.not_ignorable]; decide),List.head?_cons,Option.map_some,h.not_cased]
    rfl
  | cons c text ih =>
    rw [caseIgnorableThenCased,caseIgnorableThenCased,List.cons_append]
    cases hc : tables.caseIgnorable c with
    | true => rw [List.dropWhile_cons_of_pos hc,List.dropWhile_cons_of_pos hc]; exact ih
    | false =>
      have hne : ¬ tables.caseIgnorable c = true := by rw [hc]; decide
      rw [List.dropWhile_cons_of_neg hne,List.dropWhile_cons_of_neg hne]
      rfl

theorem toLowercaseFrom_append_percent (h : PercentIsNoLetter tables) (before text : List Char) :
    tables.toLowercaseFrom before (text ++ ['%']) = tables.toLowercaseFrom before text ++ ['%'] := by
  induction text generalizing before with
  | nil =>
    rw [List.nil_append,toLowercaseFrom,toLowercaseFrom,if_neg (by decide),tables.lower_percent]
    rfl
  | cons c text ih =>
    rw [List.cons_append,toLowercaseFrom,toLowercaseFrom,ih,List.append_assoc,
      mapUppercaseSigma,mapUppercaseSigma,caseIgnorableThenCased_percent h]

theorem toLowercaseFrom_percent_before (h : PercentIsNoLetter tables) (before text : List Char) :
    tables.toLowercaseFrom ('%' :: before) text = tables.toLowercaseFrom before text := by
  induction text generalizing before with
  | nil => rfl
  | cons c text ih =>
    rw [toLowercaseFrom,toLowercaseFrom,List.cons_append,ih,mapUppercaseSigma,
      mapUppercaseSigma,List.reverse_cons,caseIgnorableThenCased_percent h]

theorem toLowercase_append_percent (h : PercentIsNoLetter tables) (text : List Char) :
    tables.toLowercase (text ++ ['%']) = tables.toLowercase text ++ ['%'] :=
  toLowercaseFrom_append_percent h [] text

theorem toLowercase_cons_percent (h : PercentIsNoLetter tables) (text : List Char) :
    tables.toLowercase ('%' :: text) = '%' :: tables.toLowercase text := by
  rw [toLowercase,toLowercaseFrom,if_neg (by decide),tables.lower_percent,List.nil_append,
    toLowercaseFrom_percent_before h]
  rfl

theorem not_mem_toLowercase {c : Char} (hc : ∀ d, c ∈ tables.lower d → d = c) (hsigma : c ≠ 'ς' ∧ c ≠ 'σ')
    {text : List Char} (h : c ∉ text) : c ∉ tables.toLowercase text := by
  suffices hfrom : ∀ before, c ∉ tables.toLowercaseFrom before text from hfrom []
  induction text with
  | nil => exact fun _ => List.not_mem_nil
  | cons d text ih =>
    intro before hmem
    rw [toLowercaseFrom,List.mem_append] at hmem
    rcases hmem with hmem | hmem
    · by_cases hd : d = 'Σ'
      · rw [if_pos hd,List.mem_singleton,mapUppercaseSigma] at hmem
        split at hmem
        · exact hsigma.1 hmem
        · exact hsigma.2 hmem
      · rw [if_neg hd] at hmem
        exact h (hc d hmem ▸ List.mem_cons_self)
    · exact ih (fun hc => h (List.mem_cons_of_mem d hc)) _ hmem

variable {host : ScalarHost} {caseInsensitive : Bool}

theorem foldCase_append_percent (h : PercentIsNoLetter host.tables) (text : List Char) :
    foldCase host caseInsensitive (text ++ ['%']) = foldCase host caseInsensitive text ++ ['%'] := by
  cases caseInsensitive with
  | false => rfl
  | true => exact toLowercase_append_percent h text

theorem foldCase_cons_percent (h : PercentIsNoLetter host.tables) (text : List Char) :
    foldCase host caseInsensitive ('%' :: text) = '%' :: foldCase host caseInsensitive text := by
  cases caseInsensitive with
  | false => rfl
  | true => exact toLowercase_cons_percent h text

theorem map_likeToken_foldCase {text : List Char} (hmany : '%' ∉ text) (hone : '_' ∉ text) :
    (foldCase host caseInsensitive text).map likeToken = (foldCase host caseInsensitive text).map .literal := by
  cases caseInsensitive with
  | false => exact map_likeToken hmany hone
  | true =>
    exact map_likeToken (not_mem_toLowercase host.tables.eq_percent (by decide) hmany)
      (not_mem_toLowercase host.tables.eq_underscore (by decide) hone)

end Lowercase

section Simple
variable {host : ScalarHost} {caseInsensitive : Bool} {pattern : List Char} {escape : Option Char}

/-- The pattern that a simple one stands for. -/
def SimpleLikeLiteral.text : SimpleLikeLiteral → List Char
  | exact text => text
  | prefixed text => text ++ ['%']
  | suffixed text => '%' :: text
  | contains text => '%' :: (text ++ ['%'])

def SimpleLikeLiteral.inner : SimpleLikeLiteral → List Char
  | exact text | prefixed text | suffixed text | contains text => text

theorem simpleLikeLiteral_eq_some {simple : SimpleLikeLiteral} (h : simpleLikeLiteral pattern escape = some simple) :
    escape = none ∧ pattern = simple.text ∧ '%' ∉ simple.inner ∧ '_' ∉ simple.inner := by
  unfold simpleLikeLiteral at h
  split at h
  next => cases h
  next hescape =>
    obtain ⟨hescape,hone⟩ := not_or.mp hescape
    refine ⟨Option.not_isSome_iff_eq_none.mp hescape,?_⟩
    split at h
    next hcount =>
      cases h
      exact ⟨rfl,List.count_eq_zero.mp hcount,hone⟩
    next hcount =>
      split at h
      next hlast =>
        cases h
        obtain ⟨text,rfl⟩ := List.getLast?_eq_some_iff.mp hlast
        rw [List.count_append,List.count_singleton_self] at hcount
        have hzero : text.count '%' = 0 := Nat.succ.inj hcount
        rw [List.dropLast_concat]
        exact ⟨rfl,List.count_eq_zero.mp hzero,fun hmem => hone (List.mem_append_left _ hmem)⟩
      next =>
        split at h
        next hhead =>
          cases h
          obtain ⟨text,rfl⟩ := List.head?_eq_some_iff.mp hhead
          rw [List.count_cons_self] at hcount
          have hzero : text.count '%' = 0 := Nat.succ.inj hcount
          exact ⟨rfl,List.count_eq_zero.mp hzero,fun hmem => hone (List.mem_cons_of_mem _ hmem)⟩
        next => cases h
    next hcount =>
      split at h
      next hboth =>
        cases h
        obtain ⟨text,rfl⟩ := List.head?_eq_some_iff.mp hboth.1
        rw [List.count_cons_self] at hcount
        have htext : text ≠ [] := by
          rintro rfl
          cases hcount
        obtain ⟨inner,rfl⟩ := List.getLast?_eq_some_iff.mp ((List.getLast?_cons_of_ne_nil htext).symm.trans hboth.2)
        rw [List.count_append,List.count_singleton_self] at hcount
        have hzero : inner.count '%' = 0 := by omega
        rw [List.tail_cons,List.dropLast_concat]
        exact ⟨rfl,List.count_eq_zero.mp hzero,
          fun hmem => hone (List.mem_cons_of_mem _ (List.mem_append_left _ hmem))⟩
      next => cases h
    next => cases h

theorem simpleLikeMatches_eq (htables : PercentIsNoLetter host.tables) {simple : SimpleLikeLiteral}
    (hmany : '%' ∉ simple.inner) (hone : '_' ∉ simple.inner) (value : List Char) :
    simpleLikeMatches host caseInsensitive value simple =
      scalarLikeMatches ((foldCase host caseInsensitive simple.text).map likeToken)
        (foldCase host caseInsensitive value) := by
  have htokens : (foldCase host caseInsensitive simple.inner).map likeToken =
      (foldCase host caseInsensitive simple.inner).map .literal := map_likeToken_foldCase hmany hone
  rw [Bool.eq_iff_iff,scalarLikeMatches_iff]
  cases simple with
  | exact text =>
    have htokens : (foldCase host caseInsensitive text).map likeToken = _ := htokens
    rw [SimpleLikeLiteral.text,htokens,likes_exact]
    exact decide_eq_true_iff
  | prefixed text =>
    have htokens : (foldCase host caseInsensitive text).map likeToken = _ := htokens
    rw [SimpleLikeLiteral.text,foldCase_append_percent htables,List.map_append,htokens]
    exact List.isPrefixOf_iff_prefix.trans likes_prefixed.symm
  | suffixed text =>
    have htokens : (foldCase host caseInsensitive text).map likeToken = _ := htokens
    rw [SimpleLikeLiteral.text,foldCase_cons_percent htables,List.map_cons,htokens]
    exact List.isSuffixOf_iff_suffix.trans likes_suffixed.symm
  | contains text =>
    have htokens : (foldCase host caseInsensitive text).map likeToken = _ := htokens
    rw [SimpleLikeLiteral.text,foldCase_cons_percent htables,foldCase_append_percent htables,List.map_cons,
      List.map_append,htokens]
    exact decide_eq_true_iff.trans likes_contains.symm

end Simple
end Dodam.Sql
