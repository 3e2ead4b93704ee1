import Dodam.Execution.Filter.Expr
import Dodam.Execution.Filter.LikeCorrect

/-! # LIKE on substrings

A pattern that starts and ends with `%` and has no other wildcard asks for its parts one behind
the other.
-/
namespace Dodam.Sql
open Foundation Execution

structure FastLikeSubstrings where
  column : String
  parts : List (List UInt8)
  negated : Bool

def fastLikeSubstringsFilter : Expr → Option FastLikeSubstrings
  | .like like =>
    if like.caseInsensitive ∨ like.escape.isSome ∨ like.pattern.toList.head? ≠ some '%' ∨
        like.pattern.toList.getLast? ≠ some '%' ∨ '_' ∈ like.pattern.toList then none
    else
      match (splitAll '%' like.pattern.toList).filter fun part => !part.isEmpty with
      | [] => none
      | part :: parts => some ⟨like.column,(part :: parts).map utf8.encode,like.negated⟩
  | .not expr => (fastLikeSubstringsFilter expr).map fun filter => { filter with negated := !filter.negated }
  | _ => none

/-- `expr_is_like_only`. -/
def exprIsLikeOnly : Expr → Bool
  | .like _ => true
  | .not expr => exprIsLikeOnly expr
  | .and left right | .or left right => exprIsLikeOnly left && exprIsLikeOnly right
  | _ => false

def bytesOf (value : String) : List UInt8 := utf8.encode value.toList

section Matchers
variable (finder : Searcher UInt8)

/-- The loop of `fast_like_substrings_row_matches_non_null`. -/
def findParts (negated : Bool) : List (List UInt8) → List UInt8 → Bool
  | [],_ => !negated
  | part :: parts,haystack =>
    match finder.find part haystack with
    | none => negated
    | some index => findParts negated parts (haystack.drop (index + part.length))

def fastLikeSubstringsRowMatchesNonNull (filter : FastLikeSubstrings) (value : List UInt8) : Bool :=
  findParts finder filter.negated filter.parts value

def fastLikeSubstringsRowMatches (filter : FastLikeSubstrings) : Option String → Bool
  | none => false
  | some value => fastLikeSubstringsRowMatchesNonNull finder filter (bytesOf value)

def fastLikeTwoSubstringsRowMatchesNonNull (first second : List UInt8) (negated : Bool) (value : List UInt8) : Bool :=
  let matched := ((finder.find first value).bind fun index =>
    finder.find second (value.drop (index + first.length))).isSome
  matched != negated

def fastLikeTwoSubstringsRowMatches (first second : List UInt8) (negated : Bool) : Option String → Bool
  | none => false
  | some value => fastLikeTwoSubstringsRowMatchesNonNull finder first second negated (bytesOf value)

/-- The matcher that the loops over rows take: filters of two parts have their own, and strings without NULLs
are read directly. -/
def FastLikeSubstrings.rowMatches (filter : FastLikeSubstrings) (nonNull : Bool) (value : Option String) : Bool :=
  match filter.parts with
  | [first,second] =>
    if nonNull then fastLikeTwoSubstringsRowMatchesNonNull finder first second filter.negated (bytesOf (value.getD ""))
    else fastLikeTwoSubstringsRowMatches finder first second filter.negated value
  | _ =>
    if nonNull then fastLikeSubstringsRowMatchesNonNull finder filter (bytesOf (value.getD ""))
    else fastLikeSubstringsRowMatches finder filter value

end Matchers

section Correct
variable {finder : Searcher UInt8}

theorem findParts_two (first second : List UInt8) (negated : Bool) (value : List UInt8) :
    fastLikeTwoSubstringsRowMatchesNonNull finder first second negated value = findParts finder negated [first,second] value := by
  unfold fastLikeTwoSubstringsRowMatchesNonNull
  simp only [findParts]
  cases finder.find first value with
  | none => simp
  | some index =>
    dsimp only [Option.bind_some]
    cases finder.find second (value.drop (index + first.length)) with
    | none => simp
    | some next => simp

variable {filter : FastLikeSubstrings}

theorem rowMatches_eq {nonNull : Bool} {value : Option String} (h : nonNull = true → value.isSome) :
    filter.rowMatches finder nonNull value =
      (value.map fun value => findParts finder filter.negated filter.parts (bytesOf value)).getD false := by
  unfold FastLikeSubstrings.rowMatches
  cases value with
  | none =>
    obtain rfl : nonNull = false := by simpa using h
    split <;> rfl
  | some value =>
    split
    · next first second hparts =>
      have hloop : fastLikeTwoSubstringsRowMatchesNonNull finder first second filter.negated (bytesOf value) =
          findParts finder filter.negated [first,second] (bytesOf value) := findParts_two _ _ _ _
      rw [hparts]
      cases nonNull <;> exact hloop
    · cases nonNull <;> rfl

theorem findParts_negated (negated : Bool) (parts : List (List UInt8)) (value : List UInt8) :
    findParts finder negated parts value = (findParts finder false parts value != negated) := by
  induction parts generalizing value with
  | nil => cases negated <;> rfl
  | cons part parts ih =>
    unfold findParts
    cases finder.find part value with
    | none => cases negated <;> rfl
    | some index => exact ih _

theorem findParts_iff {segments : List (List Char)} (hne : ∀ segment ∈ segments, segment ≠ []) (text : List Char) :
    findParts finder false (segments.map utf8.encode) (utf8.encode text) = true ↔ Spread true segments text := by
  induction segments generalizing text with
  | nil => exact iff_of_true rfl (Or.inl rfl)
  | cons segment segments ih =>
    have hseg : segment ≠ [] := hne segment List.mem_cons_self
    rw [List.map_cons]
    unfold findParts
    cases hfind : finder.find (utf8.encode segment) (utf8.encode text) with
    | none =>
      refine iff_of_false Bool.false_ne_true ?_
      rintro ⟨gap,rest,rfl,-⟩
      apply (finder.find_none _ _).mp hfind
      exact (utf8.encode_infix_iff hseg).mpr ⟨gap,rest,List.append_assoc ..⟩
    | some index =>
      obtain ⟨gap,rest,rfl,rfl,hfirst⟩ := utf8.find_encode finder hseg hfind
      have hleast : ∀ gap' rest', gap ++ (segment ++ rest) = gap' ++ (segment ++ rest') → gap.length ≤ gap'.length := by
        intro gap' rest' h
        apply utf8.prefix_length_le (List.prefix_append ..) (by rw [h]; exact List.prefix_append ..) (hfirst gap' rest' h)
      have hdrop : (utf8.encode (gap ++ (segment ++ rest))).drop ((utf8.encode gap).length + (utf8.encode segment).length) =
          utf8.encode rest := by
        rw [SyncCode.encode_append,SyncCode.encode_append,← List.append_assoc,← List.length_append,List.drop_left]
      rw [spread_first_iff (Or.inr rfl) hleast]
      dsimp only
      rw [hdrop]
      exact ih (fun s hs => hne s (List.mem_cons_of_mem _ hs)) rest

variable (finder) in
theorem fastLikeSubstringsFilter_like {like : LikeExpr}
    (h : fastLikeSubstringsFilter (.like like) = some filter) :
    like.caseInsensitive = false ∧ like.escape = none ∧ like.pattern.toList ≠ [] ∧ '_' ∉ like.pattern.toList ∧
      filter.column = like.column ∧ filter.negated = like.negated ∧
      ∀ value : String, findParts finder false filter.parts (bytesOf value) = true ↔
        SqlLike writeSelf none like.pattern.toList value.toList := by
  unfold fastLikeSubstringsFilter at h
  split_ifs at h with hslow
  simp only [not_or,Bool.not_eq_true,Option.isSome_eq_false_iff,Option.isNone_iff_eq_none,ne_eq,not_not] at hslow
  obtain ⟨hcase,hescape,hhead,hlast,hone⟩ := hslow
  have hne : like.pattern.toList ≠ [] := by
    intro hnil
    rw [hnil] at hhead
    cases hhead
  refine ⟨hcase,hescape,hne,hone,?_⟩
  rcases pattern_cases hone with ⟨hmany,-,-⟩ | ⟨startsWithAny,endsWithAny,segments,hstarts,hends,hsegments,-,-,hlike⟩
  · exact absurd (List.mem_of_head? hhead) hmany
  rw [hstarts.mp hhead,hends.mp hlast] at hlike
  rw [hsegments] at h
  cases segments with
  | nil => cases h
  | cons part parts =>
    cases h
    refine ⟨rfl,rfl,fun value => ?_⟩
    rw [hlike]
    exact findParts_iff (mem_segments_ne hsegments) value.toList

end Correct

section Truth
variable {ρ : Type*} (finder : Searcher UInt8) (tables : CaseTables) (text : String → ρ → Option String)
  (condition : Expr → ρ → Result (Option Bool)) (row : ρ)

/-- The truth value of a filter on a row, with the verdict of `evaluate_like` on its string; what conditions other
than LIKE are worth is given. -/
def filterTruth : Expr → Result (Option Bool)
  | .like like => (evaluateLike finder tables (.utf8 [text like.column row]) like).map fun mask => mask.headD none
  | .not expr => (filterTruth expr).map (Option.map not)
  | .and left right => (filterTruth left).bind fun left => (filterTruth right).map (andKleene left)
  | .or left right => (filterTruth left).bind fun left => (filterTruth right).map (orKleene left)
  | expr => condition expr row

variable {finder text row} {filter : FastLikeSubstrings}

theorem evaluateLike_substrings {like : LikeExpr}
    (h : fastLikeSubstringsFilter (.like like) = some filter) (value : Option String) :
    evaluateLike finder tables (.utf8 [value]) like =
      .ok [value.map fun value => findParts finder filter.negated filter.parts (bytesOf value)] := by
  obtain ⟨hcase,hescape,hne,hone,-,hnegated,hverdict⟩ := fastLikeSubstringsFilter_like finder h
  obtain ⟨fast,hfast⟩ : ∃ fast, fastLikePattern like.pattern.toList like.escape = some fast := by
    unfold fastLikePattern
    rw [if_neg (by simp [hescape,hone])]
    split <;> exact ⟨_,rfl⟩
  have hmatch : ∀ value : String, fast.matches finder value.toList = findParts finder false filter.parts (bytesOf value) := by
    intro value
    have hlike := fastLikePattern_matches finder hfast hne value.toList
    rw [hescape] at hlike
    exact Bool.eq_iff_iff.mpr (hlike.trans (hverdict value).symm)
  unfold evaluateLike
  dsimp only [LikeColumn.values]
  rw [hcase,if_neg Bool.false_ne_true,hfast]
  unfold evaluateLikeValues
  simp only [Bool.false_eq_true,if_false,List.map_cons,List.map_nil,hmatch]
  cases value with
  | none => rfl
  | some value =>
    rw [Option.map_some,Option.map_some,findParts_negated filter.negated,hnegated]
    cases like.negated <;> simp

theorem filterTruth_substrings {expr : Expr} (h : fastLikeSubstringsFilter expr = some filter) :
    filterTruth finder tables text condition row expr =
      .ok ((text filter.column row).map fun value => findParts finder filter.negated filter.parts (bytesOf value)) := by
  induction expr generalizing filter with
  | like like =>
    have hcolumn := (fastLikeSubstringsFilter_like finder h).2.2.2.2.1
    unfold filterTruth
    rw [evaluateLike_substrings tables h,hcolumn]
    rfl
  | not expr ih =>
    obtain ⟨inner,hinner,rfl⟩ := Option.map_eq_some_iff.mp h
    have hturn : ∀ value : List UInt8, findParts finder (!inner.negated) inner.parts value =
        !findParts finder inner.negated inner.parts value := by
      intro value
      rw [findParts_negated (!inner.negated),findParts_negated inner.negated]
      cases findParts finder false inner.parts value <;> cases inner.negated <;> rfl
    unfold filterTruth
    rw [ih hinner]
    simp [Except.map,hturn,Function.comp_def]
  | _ => cases h

theorem rowMatches_iff {expr : Expr} (h : fastLikeSubstringsFilter expr = some filter)
    {nonNull : Bool} (hnonNull : nonNull = true → (text filter.column row).isSome) :
    filter.rowMatches finder nonNull (text filter.column row) = true ↔
      filterTruth finder tables text condition row expr = .ok (some true) := by
  rw [rowMatches_eq hnonNull,filterTruth_substrings tables condition h]
  cases text filter.column row with
  | none => simp
  | some value => simp

theorem rowMatches_iff_inside :
    FastLikeSubstrings.rowMatches (scanSearcher UInt8) ⟨"s",[utf8.encode ['a']],false⟩ true (some "cab") = true ↔
      filterTruth (scanSearcher UInt8) asciiTables (fun _ (_ : Unit) => some "cab") (fun _ _ => .ok none) ()
        (.like ⟨"s","%a%",false,none,false⟩) = .ok (some true) :=
  @rowMatches_iff Unit _ asciiTables (fun _ _ => some "cab") (fun _ _ => .ok none) () _ _ rfl true fun _ => rfl

end Truth
end Dodam.Sql
