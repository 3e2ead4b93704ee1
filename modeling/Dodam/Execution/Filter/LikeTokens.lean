import Dodam.Execution.Filter.Like
import Mathlib.Data.List.GetD

/-! # LIKE by tokens

The table of reachable positions decides the declarative match of the tokens,
and the tokens of a pattern mean what SQL says about its characters.
-/
namespace Dodam.Execution
open Foundation

section Table

theorem getD_scanl_or (l : List Bool) (b : Bool) (i : ℕ) (hi : i < l.length) :
    (l.scanl (· || ·) b).tail.getD i false = true ↔ b = true ∨ ∃ j ≤ i, l.getD j false = true := by
  induction l generalizing b i with
  | nil => exact absurd hi (Nat.not_lt_zero i)
  | cons a l ih =>
    rw [List.scanl_cons,List.tail_cons]
    have hhead : (l.scanl (· || ·) (b || a)) = (b || a) :: (l.scanl (· || ·) (b || a)).tail := by
      cases l <;> simp
    rw [hhead]
    cases i with
    | zero =>
      simp
    | succ i =>
      rw [List.getD_cons_succ,ih (b || a) i (by simpa using hi),Bool.or_eq_true,or_assoc]
      refine or_congr_right ⟨?_,?_⟩
      · rintro (ha | ⟨j,hj,h⟩)
        · exact ⟨0,Nat.zero_le _,ha⟩
        · exact ⟨j + 1,Nat.succ_le_succ hj,h⟩
      · rintro ⟨j,hj,h⟩
        cases j with
        | zero => exact Or.inl h
        | succ j => exact Or.inr ⟨j,Nat.le_of_succ_le_succ hj,h⟩

/-- The positions of a text that the tokens read so far can reach. -/
structure Reaches (value : List Char) (seen : List LikeToken) (matched : List Bool) : Prop where
  length_eq : matched.length = value.length + 1
  getD_iff : ∀ i ≤ value.length, matched.getD i false = true ↔ Likes seen (value.take i)

theorem reaches_init (value : List Char) :
    Reaches value [] (true :: List.replicate value.length false) := by
  refine ⟨by simp,fun i hi => ?_⟩
  cases i with
  | zero => simp [Likes]
  | succ i =>
    have hfalse : (List.replicate value.length false).getD i false = false := by
      rw [List.getD_eq_getElem _ _ (by rw [List.length_replicate]; omega),List.getElem_replicate]
    rw [List.getD_cons_succ,hfalse]
    refine iff_of_false Bool.false_ne_true fun h => ?_
    have hlen := congrArg List.length h
    rw [List.length_take,List.length_nil] at hlen
    omega

variable {value : List Char} {seen : List LikeToken}

theorem likes_snoc_take {token : LikeToken} {i : ℕ}
    (hi : i ≤ value.length) : Likes (seen ++ [token]) (value.take i) ↔
      ∃ j ≤ i, Likes seen (value.take j) ∧ token.Takes ((value.take i).drop j) := by
  rw [likes_append]
  constructor
  · rintro ⟨a,b,h,ha,hb⟩
    have hlen := congrArg List.length h
    rw [List.length_take,List.length_append] at hlen
    have hle : a.length ≤ i := by omega
    have htake : value.take a.length = a := by
      have hcut := congrArg (List.take a.length) h
      rwa [List.take_take,min_eq_left hle,List.take_left] at hcut
    refine ⟨a.length,hle,by rw [htake]; exact ha,?_⟩
    rw [h,List.drop_left]
    exact likes_singleton.mp hb
  · rintro ⟨j,hj,ha,hb⟩
    refine ⟨value.take j,(value.take i).drop j,?_,ha,likes_singleton.mpr hb⟩
    have hcut : value.take j = (value.take i).take j := by rw [List.take_take,min_eq_left hj]
    rw [hcut,List.take_append_drop]

theorem drop_take_eq_singleton {i j : ℕ} {c : Char} (hi : i < value.length)
    (hj : j ≤ i + 1) : (value.take (i + 1)).drop j = [c] ↔ j = i ∧ value[i] = c := by
  have hone : (value.take (i + 1)).drop i = [value[i]] := by
    rw [List.drop_take,Nat.add_sub_cancel_left,List.drop_eq_getElem_cons hi]
    rfl
  constructor
  · intro h
    have hlen := congrArg List.length h
    rw [List.length_drop,List.length_take,List.length_singleton] at hlen
    obtain rfl : j = i := by omega
    rw [hone] at h
    exact ⟨rfl,List.singleton_inj.mp h⟩
  · rintro ⟨rfl,rfl⟩
    exact hone

theorem takes_nothing {token : LikeToken}
    (h : ¬ token.Takes []) : ¬ ∃ j ≤ 0, Likes seen (value.take j) ∧ token.Takes ((value.take 0).drop j) := by
  rintro ⟨j,-,-,ht⟩
  rw [List.take_zero,List.drop_nil] at ht
  exact h ht

theorem Reaches.step {matched : List Bool} (h : Reaches value seen matched) (token : LikeToken) :
    Reaches value (seen ++ [token]) (likeStep value matched token) := by
  have hlen := h.length_eq
  cases token with
  | anyMany =>
    refine ⟨by simp [likeStep,hlen],fun i hi => ?_⟩
    rw [likeStep,getD_scanl_or _ _ _ (by omega),likes_snoc_take hi]
    constructor
    · rintro (hf | ⟨j,hj,hm⟩)
      · cases hf
      · exact ⟨j,hj,(h.getD_iff j (hj.trans hi)).mp hm,trivial⟩
    · rintro ⟨j,hj,hl,-⟩
      exact Or.inr ⟨j,hj,(h.getD_iff j (hj.trans hi)).mpr hl⟩
  | anyOne =>
    refine ⟨by simp [likeStep,hlen],fun i hi => ?_⟩
    rw [likes_snoc_take hi,likeStep]
    cases i with
    | zero => exact iff_of_false Bool.false_ne_true (takes_nothing (by rintro ⟨a,⟨⟩⟩))
    | succ i =>
      have htake : (matched.take value.length).getD i false = matched.getD i false := by
        rw [List.getD_eq_getElem _ _ (by rw [List.length_take]; omega),
          List.getD_eq_getElem _ _ (by omega),List.getElem_take]
      rw [List.getD_cons_succ,htake,h.getD_iff i (by omega)]
      constructor
      · intro hl
        exact ⟨i,by omega,hl,value[i],(drop_take_eq_singleton (by omega) (by omega)).mpr ⟨rfl,rfl⟩⟩
      · rintro ⟨j,hj,hl,c,hc⟩
        obtain ⟨rfl,-⟩ := (drop_take_eq_singleton (by omega) hj).mp hc
        exact hl
  | literal expected =>
    refine ⟨by simp [likeStep,hlen],fun i hi => ?_⟩
    rw [likes_snoc_take hi,likeStep]
    cases i with
    | zero => exact iff_of_false Bool.false_ne_true (takes_nothing (by rintro ⟨⟩))
    | succ i =>
      have hget : (List.zipWith (fun m c => m && c == expected) matched value).getD i false =
          (matched.getD i false && value[i] == expected) := by
        rw [List.getD_eq_getElem _ _ (by rw [List.length_zipWith]; omega),List.getElem_zipWith,
          List.getD_eq_getElem _ _ (by omega)]
      rw [List.getD_cons_succ,hget,Bool.and_eq_true,h.getD_iff i (by omega),beq_iff_eq]
      constructor
      · rintro ⟨hl,hc⟩
        exact ⟨i,by omega,hl,(drop_take_eq_singleton (by omega) (by omega)).mpr ⟨rfl,hc⟩⟩
      · rintro ⟨j,hj,hl,hc⟩
        obtain ⟨rfl,hc⟩ := (drop_take_eq_singleton (by omega) hj).mp hc
        exact ⟨hl,hc⟩

theorem likeMatches_iff (value : List Char) (tokens : List LikeToken) :
    likeMatches value tokens = true ↔ Likes tokens value := by
  suffices h : ∀ (rest seen : List LikeToken) (matched : List Bool), Reaches value seen matched →
      Reaches value (seen ++ rest) (rest.foldl (likeStep value) matched) by
    have hfinal := (h tokens [] _ (reaches_init value)).getD_iff value.length (le_refl _)
    rw [List.take_length] at hfinal
    exact hfinal
  intro rest
  induction rest with
  | nil =>
    intro seen matched h
    rw [List.append_nil]
    exact h
  | cons token rest ih =>
    intro seen matched h
    rw [List.append_cons]
    exact ih _ _ (h.step token)

end Table

section Pattern

/-- The SQL LIKE relation of a pattern and a text, with each literal character written out by
`write`: as itself, or as its case folding. -/
inductive SqlLike (write : Char → List Char) (escape : Option Char) : List Char → List Char → Prop
  | done : SqlLike write escape [] []
  | escaped {e c : Char} {pattern text : List Char} (he : escape = some e)
      (rest : SqlLike write escape pattern text) : SqlLike write escape (e :: c :: pattern) (write c ++ text)
  | anyMany {gap pattern text : List Char} (he : escape ≠ some '%')
      (rest : SqlLike write escape pattern text) : SqlLike write escape ('%' :: pattern) (gap ++ text)
  | anyOne {c : Char} {pattern text : List Char} (he : escape ≠ some '_')
      (rest : SqlLike write escape pattern text) : SqlLike write escape ('_' :: pattern) (c :: text)
  | literal {c : Char} {pattern text : List Char} (he : escape ≠ some c) (hmany : c ≠ '%')
      (hone : c ≠ '_') (rest : SqlLike write escape pattern text) :
      SqlLike write escape (c :: pattern) (write c ++ text)

variable {write : Char → List Char} {escape : Option Char} {text pattern : List Char}

theorem sqlLike_nil : SqlLike write escape [] text ↔ text = [] := by
  constructor
  · rintro ⟨⟩
    rfl
  · rintro rfl
    exact .done

theorem sqlLike_escaped {e c : Char} (he : escape = some e) :
    SqlLike write escape (e :: c :: pattern) text ↔
      ∃ rest, text = write c ++ rest ∧ SqlLike write escape pattern rest := by
  constructor
  · intro h
    cases h with
    | escaped _ rest => exact ⟨_,rfl,rest⟩
    | anyMany hne => exact absurd he hne
    | anyOne hne => exact absurd he hne
    | literal hne => exact absurd he hne
  · rintro ⟨rest,rfl,h⟩
    exact .escaped he h

theorem sqlLike_anyMany (he : escape ≠ some '%') : SqlLike write escape ('%' :: pattern) text ↔
      ∃ gap rest, text = gap ++ rest ∧ SqlLike write escape pattern rest := by
  constructor
  · intro h
    cases h with
    | escaped heq => exact absurd heq he
    | anyMany _ rest => exact ⟨_,_,rfl,rest⟩
    | literal _ hne => exact absurd rfl hne
  · rintro ⟨gap,rest,rfl,h⟩
    exact .anyMany he h

theorem sqlLike_anyOne (he : escape ≠ some '_') : SqlLike write escape ('_' :: pattern) text ↔
      ∃ c rest, text = c :: rest ∧ SqlLike write escape pattern rest := by
  constructor
  · intro h
    cases h with
    | escaped heq => exact absurd heq he
    | anyOne _ rest => exact ⟨_,_,rfl,rest⟩
    | literal _ _ hne => exact absurd rfl hne
  · rintro ⟨c,rest,rfl,h⟩
    exact .anyOne he h

theorem sqlLike_literal {c : Char} (he : escape ≠ some c) (hmany : c ≠ '%')
    (hone : c ≠ '_') : SqlLike write escape (c :: pattern) text ↔
      ∃ rest, text = write c ++ rest ∧ SqlLike write escape pattern rest := by
  constructor
  · intro h
    cases h with
    | escaped heq => exact absurd heq he
    | anyMany => exact absurd rfl hmany
    | anyOne => exact absurd rfl hone
    | literal _ _ _ rest => exact ⟨_,rfl,rest⟩
  · rintro ⟨rest,rfl,h⟩
    exact .literal he hmany hone h

def writeTokens (write : Char → List Char) (tokens : List LikeToken) : List LikeToken :=
  tokens.flatMap fun
    | .literal c => (write c).map .literal
    | token => [token]

@[simp] theorem writeTokens_append (s t : List LikeToken) :
    writeTokens write (s ++ t) = writeTokens write s ++ writeTokens write t := List.flatMap_append

theorem writeTokens_self (tokens : List LikeToken) : writeTokens (fun c => [c]) tokens = tokens := by
  induction tokens with
  | nil => rfl
  | cons token tokens ih =>
    change (match token with
      | .literal c => ([c].map .literal : List LikeToken)
      | token => [token]) ++ writeTokens (fun c => [c]) tokens = token :: tokens
    rw [ih]
    cases token <;> rfl

theorem writeTokens_literal (c : Char) : writeTokens write [.literal c] = (write c).map .literal :=
  List.append_nil _

theorem likes_shift {s u : List LikeToken} {P Q : List Char → Prop}
    (hQ : ∀ b, Q b ↔ ∃ x y, b = x ++ y ∧ Likes u x ∧ P y) :
    (∃ a b, text = a ++ b ∧ Likes (s ++ u) a ∧ P b) ↔ ∃ a b, text = a ++ b ∧ Likes s a ∧ Q b := by
  constructor
  · rintro ⟨a,b,rfl,ha,hb⟩
    obtain ⟨x,y,rfl,hx,hy⟩ := likes_append.mp ha
    exact ⟨x,y ++ b,List.append_assoc ..,hx,(hQ _).mpr ⟨y,b,rfl,hy,hb⟩⟩
  · rintro ⟨a,_,rfl,ha,hb⟩
    obtain ⟨x,y,rfl,hx,hy⟩ := (hQ _).mp hb
    exact ⟨a ++ x,y,(List.append_assoc ..).symm,likes_append.mpr ⟨a,x,rfl,ha,hx⟩,hy⟩

theorem likes_written {c : Char} {P : List Char → Prop} (b : List Char) :
    (∃ rest, b = write c ++ rest ∧ P rest) ↔
      ∃ x y, b = x ++ y ∧ Likes (writeTokens write [.literal c]) x ∧ P y := by
  have hone : ∀ x, Likes (writeTokens write [.literal c]) x ↔ x = write c := by
    intro x
    rw [writeTokens_literal,← List.append_nil ((write c).map _),likes_literals]
    exact ⟨fun ⟨rest,hx,hr⟩ => by rw [hx,hr,List.append_nil],fun hx => ⟨[],by rw [hx,List.append_nil],rfl⟩⟩
  simp only [hone]
  constructor
  · rintro ⟨rest,rfl,h⟩
    exact ⟨write c,rest,rfl,rfl,h⟩
  · rintro ⟨_,rest,rfl,rfl,h⟩
    exact ⟨rest,rfl,h⟩

theorem likes_push_anyMany (tokens : List LikeToken) (text : List Char) :
    Likes (writeTokens write (if tokens.getLast? = some .anyMany then tokens else tokens ++ [.anyMany])) text ↔
      Likes (writeTokens write tokens ++ [.anyMany]) text := by
  split_ifs with h
  · obtain ⟨s,rfl⟩ : ∃ s, tokens = s ++ [.anyMany] := List.getLast?_eq_some_iff.mp h
    have hgap : writeTokens write ([.anyMany] : List LikeToken) = [.anyMany] := rfl
    rw [writeTokens_append,hgap,List.append_assoc]
    exact likes_anyMany_twice.symm
  · rw [writeTokens_append]
    rfl

section Step
variable {pattern : String} {tokens : List LikeToken} {chars : List Char}

theorem likePatternTokensFrom_many (he : some '%' ≠ escape) :
    likePatternTokensFrom pattern escape tokens ('%' :: chars) = likePatternTokensFrom pattern escape
      (if tokens.getLast? = some .anyMany then tokens else tokens ++ [.anyMany]) chars := by
  conv_lhs => unfold likePatternTokensFrom
  rw [if_neg he,if_pos rfl]

theorem likePatternTokensFrom_one (he : some '_' ≠ escape) :
    likePatternTokensFrom pattern escape tokens ('_' :: chars) =
      likePatternTokensFrom pattern escape (tokens ++ [.anyOne]) chars := by
  conv_lhs => unfold likePatternTokensFrom
  rw [if_neg he,if_neg (by decide),if_pos rfl]

theorem likePatternTokensFrom_literal {c : Char} (he : some c ≠ escape) (hmany : c ≠ '%')
    (hone : c ≠ '_') : likePatternTokensFrom pattern escape tokens (c :: chars) =
      likePatternTokensFrom pattern escape (tokens ++ [.literal c]) chars := by
  conv_lhs => unfold likePatternTokensFrom
  rw [if_neg he,if_neg hmany,if_neg hone]

theorem likePatternTokensFrom_escape {e c : Char} (he : some e = escape) :
    likePatternTokensFrom pattern escape tokens (e :: c :: chars) =
      likePatternTokensFrom pattern escape (tokens ++ [.literal c]) chars := by
  conv_lhs => unfold likePatternTokensFrom
  rw [if_pos he]

theorem likePatternTokensFrom_dangling {e : Char} (he : some e = escape) :
    likePatternTokensFrom pattern escape tokens [e] = invalidFilter (danglingEscapeMessage pattern) := by
  unfold likePatternTokensFrom
  rw [if_pos he]

end Step

theorem likePatternTokensFrom_ok {pattern : String} {tokens result : List LikeToken} {chars : List Char}
    (h : likePatternTokensFrom pattern escape tokens chars = .ok result) (text : List Char) :
    Likes (writeTokens write result) text ↔ ∃ a b, text = a ++ b ∧ Likes (writeTokens write tokens) a ∧
      SqlLike write escape chars b := by
  induction tokens, chars using likePatternTokensFrom.induct escape with
  | case1 tokens =>
    cases h
    simp only [sqlLike_nil]
    constructor
    · intro hl
      exact ⟨text,[],(List.append_nil _).symm,hl,rfl⟩
    · rintro ⟨a,b,rfl,ha,rfl⟩
      rw [List.append_nil]
      exact ha
  | case2 tokens ch hescape =>
    rw [likePatternTokensFrom_dangling hescape] at h
    cases h
  | case3 tokens ch hescape escaped chars ih =>
    rw [likePatternTokensFrom_escape hescape] at h
    rw [ih h,writeTokens_append]
    refine likes_shift fun b => ?_
    rw [sqlLike_escaped hescape.symm]
    exact likes_written b
  | case4 tokens chars hescape ih =>
    rw [likePatternTokensFrom_many hescape] at h
    rw [ih h]
    simp only [likes_push_anyMany]
    refine likes_shift fun b => ?_
    rw [sqlLike_anyMany (Ne.symm hescape)]
    constructor
    · rintro ⟨gap,rest,rfl,hrest⟩
      exact ⟨gap,rest,rfl,likes_singleton.mpr trivial,hrest⟩
    · rintro ⟨gap,rest,rfl,-,hrest⟩
      exact ⟨gap,rest,rfl,hrest⟩
  | case5 tokens chars hescape hmany ih =>
    rw [likePatternTokensFrom_one hescape] at h
    rw [ih h,writeTokens_append]
    refine likes_shift fun b => ?_
    rw [sqlLike_anyOne (Ne.symm hescape)]
    constructor
    · rintro ⟨c,rest,rfl,hrest⟩
      exact ⟨[c],rest,rfl,likes_singleton.mpr ⟨c,rfl⟩,hrest⟩
    · rintro ⟨_,rest,rfl,hone,hrest⟩
      obtain ⟨c,rfl⟩ := likes_singleton.mp hone
      exact ⟨c,rest,rfl,hrest⟩
  | case6 tokens ch chars hescape hmany hone ih =>
    rw [likePatternTokensFrom_literal hescape hmany hone] at h
    rw [ih h,writeTokens_append]
    refine likes_shift fun b => ?_
    rw [sqlLike_literal (Ne.symm hescape) hmany hone]
    exact likes_written b

theorem likePatternTokens_ok {pattern : List Char} {tokens : List LikeToken}
    (h : likePatternTokens pattern escape = .ok tokens) (text : List Char) :
    Likes (writeTokens write tokens) text ↔ SqlLike write escape pattern text := by
  rw [likePatternTokensFrom_ok h]
  constructor
  · rintro ⟨_,b,rfl,rfl,hb⟩
    exact hb
  · intro hb
    exact ⟨[],text,rfl,rfl,hb⟩

end Pattern
end Dodam.Execution
