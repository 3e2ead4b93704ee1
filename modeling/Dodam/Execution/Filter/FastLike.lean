import Dodam.Execution.Filter.LikeTokens

/-! # LIKE by text segments

A pattern without escape and `_` is the list of its parts between `%`. The fast path searches
the nonempty parts from left to right on the bytes of the value.
-/
namespace Dodam.Execution
open Foundation

def writeSelf (c : Char) : List Char := [c]

section Parts

variable {pattern part : List Char} {parts : List (List Char)}

theorem partsMatch_splitAll (h : '_' ∉ pattern) (text : List Char) :
    PartsMatch (splitAll '%' pattern) text ↔ SqlLike writeSelf none pattern text := by
  induction pattern generalizing text with
  | nil => exact sqlLike_nil.symm
  | cons c pattern ih =>
    rw [List.mem_cons,not_or] at h
    obtain ⟨part,parts,hparts⟩ := exists_splitAll '%' pattern
    by_cases hc : c = '%'
    · subst hc
      rw [splitAll_cons_self,sqlLike_anyMany (by simp),hparts]
      simp only [← ih h.2,hparts]
      rfl
    · rw [splitAll_cons_of_ne hc hparts,sqlLike_literal (by simp) hc (Ne.symm h.1)]
      simp only [← ih h.2,hparts]
      cases parts with
      | nil =>
        constructor
        · rintro rfl
          exact ⟨part,rfl,rfl⟩
        · rintro ⟨rest,rfl,rfl⟩
          rfl
      | cons next parts =>
        constructor
        · rintro ⟨gap,rest,rfl,hrest⟩
          exact ⟨part ++ (gap ++ rest),rfl,gap,rest,rfl,hrest⟩
        · rintro ⟨_,rfl,gap,rest,rfl,hrest⟩
          exact ⟨gap,rest,rfl,hrest⟩

theorem head?_splitAll (h : splitAll '%' pattern = part :: parts) :
    pattern.head? = some '%' ↔ part = [] ∧ parts ≠ [] := by
  cases pattern with
  | nil =>
    cases h
    simp
  | cons c pattern =>
    obtain ⟨part',parts',hparts⟩ := exists_splitAll '%' pattern
    by_cases hc : c = '%'
    · rw [hc,splitAll_cons_self,hparts] at h
      cases h
      simp [hc]
    · rw [splitAll_cons_of_ne hc hparts] at h
      cases h
      simp [hc]

theorem getLast?_splitAll {next : List Char} (h : splitAll '%' pattern = part :: next :: parts) :
    pattern.getLast? = some '%' ↔ lastEmpty (next :: parts) = true := by
  induction pattern generalizing part next parts with
  | nil => cases h
  | cons c pattern ih =>
    obtain ⟨part',parts',hparts⟩ := exists_splitAll '%' pattern
    by_cases hc : c = '%'
    · rw [hc,splitAll_cons_self,hparts] at h
      obtain ⟨rfl,rfl,rfl⟩ : [] = part ∧ part' = next ∧ parts' = parts := by simpa using h
      cases parts' with
      | nil =>
        obtain ⟨rfl,hn⟩ := splitAll_singleton hparts
        cases pattern with
        | nil => simp [hc,lastEmpty]
        | cons d pattern =>
          rw [List.getLast?_cons_cons]
          exact iff_of_false (fun hl => hn (List.mem_of_getLast? hl)) Bool.false_ne_true
      | cons next' parts' =>
        cases pattern with
        | nil => cases hparts
        | cons d pattern =>
          rw [List.getLast?_cons_cons]
          change _ ↔ lastEmpty (next' :: parts') = true
          exact ih hparts
    · rw [splitAll_cons_of_ne hc hparts] at h
      cases h
      cases pattern with
      | nil => cases hparts
      | cons d pattern =>
        rw [List.getLast?_cons_cons]
        exact ih hparts

/-- A pattern with a gap: an anchored segment when it does not start with one, then spread ones. -/
def SegmentsMatch (startsWithAny endsWithAny : Bool) (segments : List (List Char)) (text : List Char) :
    Prop :=
  if startsWithAny then Spread endsWithAny segments text
  else ∃ rest, text = segments.headD [] ++ rest ∧ Spread endsWithAny segments.tail rest

/-- What `fast_like_pattern` reads off a pattern: it is one text, or its segments and open ends. -/
theorem pattern_cases (h : '_' ∉ pattern) : ('%' ∉ pattern ∧ splitAll '%' pattern = [pattern] ∧
        ∀ text, SqlLike writeSelf none pattern text ↔ text = pattern) ∨
      ∃ startsWithAny endsWithAny segments, (pattern.head? = some '%' ↔ startsWithAny = true) ∧
        (pattern.getLast? = some '%' ↔ endsWithAny = true) ∧
        ((splitAll '%' pattern).filter fun p => !p.isEmpty) = segments ∧
        (startsWithAny = false → segments ≠ []) ∧
        (segments.drop (if startsWithAny then 0 else 1) = [] → endsWithAny = true) ∧
        ∀ text, SqlLike writeSelf none pattern text ↔
          SegmentsMatch startsWithAny endsWithAny segments text := by
  obtain ⟨part,parts,hparts⟩ := exists_splitAll '%' pattern
  have hmatch := fun text => (partsMatch_splitAll h text).symm
  rw [hparts] at hmatch
  have hhead := head?_splitAll hparts
  cases parts with
  | nil =>
    obtain ⟨rfl,hn⟩ := splitAll_singleton hparts
    exact Or.inl ⟨hn,hparts,hmatch⟩
  | cons next parts =>
    refine Or.inr ⟨part.isEmpty,lastEmpty (next :: parts),_,?_,getLast?_splitAll hparts,rfl,?_,?_,?_⟩
    · rw [hhead]
      simp
    · intro hpart
      rw [hparts,List.filter_cons_of_pos (by rw [hpart]; rfl)]
      exact List.cons_ne_nil _ _
    · intro hdrop
      refine lastEmpty_of_filter (List.cons_ne_nil _ _) ?_
      rw [hparts] at hdrop
      cases part with
      | nil => exact hdrop
      | cons c part => exact hdrop
    · intro text
      rw [hmatch,partsMatch_iff,hparts]
      cases part with
      | nil =>
        constructor
        · rintro ⟨rest,rfl,hrest⟩
          exact hrest
        · intro hrest
          exact ⟨text,rfl,hrest⟩
      | cons c part => exact Iff.rfl

end Parts

section Ordered

variable (finder : Searcher UInt8)

variable {startsWithAny endsWithAny : Bool} {segments : List (List Char)}

/-- The loop behind the anchored segment, at a position of the text. -/
theorem orderedLoop_iff
    (seen rest : List Char) {index count : ℕ} (hindex : index ≠ 0 ∨ startsWithAny = true)
    (hcount : count = index + segments.length) (hopen : segments ≠ [] ∨ endsWithAny = true)
    (hne : ∀ segment ∈ segments, segment ≠ [])
    (hlast : endsWithAny = false → ∀ segment ∈ segments.getLast?, segment <:+ seen ++ rest) :
    orderedLoop finder startsWithAny endsWithAny count (utf8.encode (seen ++ rest)) index
        (utf8.encode seen).length segments = true ↔ Spread endsWithAny segments rest := by
  induction segments generalizing seen rest index with
  | nil => exact iff_of_true rfl (Or.inl (hopen.resolve_left fun h => h rfl))
  | cons segment segments ih =>
    have hseg : segment ≠ [] := hne segment (by simp)
    unfold orderedLoop
    rw [if_neg (by rintro ⟨h0,hs⟩; rcases hindex with h | h <;> simp_all)]
    by_cases hend : index + 1 = count ∧ endsWithAny = false
    · rw [if_pos hend]
      obtain rfl : segments = [] := by
        rw [List.length_cons] at hcount
        exact List.length_eq_zero_iff.mp (by omega)
      have hsuffix : segment <:+ seen ++ rest := hlast hend.2 segment rfl
      have hbytes : (utf8.encode (seen ++ rest)).length =
          (utf8.encode seen).length + (utf8.encode rest).length := by
        rw [SyncCode.encode_append,List.length_append]
      rw [hend.2,spread_last]
      split_ifs with hshort
      · refine iff_of_false (by simp) ?_
        rintro ⟨gap,rfl⟩
        have hgap : (utf8.encode (gap ++ segment)).length =
            (utf8.encode gap).length + (utf8.encode segment).length := by
          rw [SyncCode.encode_append,List.length_append]
        omega
      · refine iff_of_true rfl ?_
        obtain ⟨before,hbefore⟩ := hsuffix
        have htotal : (utf8.encode (seen ++ rest)).length =
            (utf8.encode before).length + (utf8.encode segment).length := by
          rw [← hbefore,SyncCode.encode_append,List.length_append]
        have hle := utf8.suffix_length_le ⟨before,hbefore⟩ (List.suffix_append seen rest) (by omega)
        exact List.suffix_of_suffix_length_le ⟨before,hbefore⟩ (List.suffix_append seen rest) hle
    · rw [if_neg hend,SyncCode.encode_append,List.drop_left]
      cases hf : finder.find (utf8.encode segment) (utf8.encode rest) with
      | none =>
        refine iff_of_false Bool.false_ne_true ?_
        rintro ⟨gap,after,rfl,-⟩
        exact (finder.find_none _ _).mp hf ((utf8.encode_infix_iff hseg).mpr
          ⟨gap,after,List.append_assoc ..⟩)
      | some relative =>
        obtain ⟨pre,after,rfl,rfl,hfirst⟩ := utf8.find_encode finder hseg hf
        have hopen' : segments ≠ [] ∨ endsWithAny = true := by
          by_contra hn
          rw [not_or,not_not] at hn
          rw [hn.1] at hcount
          exact hend ⟨by simpa using hcount.symm,by simpa using hn.2⟩
        have hleast : ∀ pre' after', pre ++ (segment ++ after) = pre' ++ (segment ++ after') →
            pre.length ≤ pre'.length := fun pre' after' h => utf8.prefix_length_le
          (List.prefix_append ..) (by rw [h]; exact List.prefix_append ..) (hfirst pre' after' h)
        rw [spread_first_iff hopen' hleast]
        have hseen : seen ++ (pre ++ (segment ++ after)) = (seen ++ (pre ++ segment)) ++ after := by simp
        have hoffset : (utf8.encode seen).length + ((utf8.encode pre).length + (utf8.encode segment).length) =
            (utf8.encode (seen ++ (pre ++ segment))).length := by simp
        dsimp only
        rw [← SyncCode.encode_append,hseen,hoffset]
        rw [hseen] at hlast
        refine ih _ _ (Or.inl (Nat.succ_ne_zero index)) ?_ hopen' (fun s hs => hne s (by simp [hs])) ?_
        · rw [hcount,List.length_cons]
          omega
        · intro hf s hs
          refine hlast hf s ?_
          obtain ⟨t,ts,rfl⟩ := List.exists_cons_of_ne_nil (List.ne_nil_of_mem (List.mem_of_getLast? hs))
          rw [List.getLast?_cons_cons]
          exact hs

theorem orderedMatches_iff
    (htwo : 2 ≤ segments.length) (hne : ∀ segment ∈ segments, segment ≠ []) (text : List Char) :
    (FastLikePattern.ordered startsWithAny endsWithAny segments).matches finder text = true ↔
      SegmentsMatch startsWithAny endsWithAny segments text := by
  obtain ⟨first,next,others,rfl⟩ : ∃ first next others, segments = first :: next :: others := by
    match segments with
    | first :: next :: others => exact ⟨first,next,others,rfl⟩
  obtain ⟨last,hlast⟩ : ∃ last, (next :: others).getLast? = some last :=
    ⟨_,List.getLast?_eq_some_getLast (List.cons_ne_nil _ _)⟩
  have hlastD : (first :: next :: others).getLastD [] = last := by
    rw [List.getLastD_eq_getLast?,List.getLast?_cons_cons,hlast]
    rfl
  have hsuffix : endsWithAny = false → ∀ {rest : List Char}, Spread endsWithAny (next :: others) rest →
      last <:+ rest := by
    rintro rfl rest hs
    exact hs.last_suffix last hlast
  unfold FastLikePattern.matches
  dsimp only
  rw [hlastD,List.headD_cons]
  have hprefixes : (first.isPrefixOf text = true) ↔ first <+: text := List.isPrefixOf_iff_prefix
  have hsuffixes : (last.isSuffixOf text = true) ↔ last <:+ text := List.isSuffixOf_iff_suffix
  have hends : (!endsWithAny && !last.isSuffixOf text) = true ↔ endsWithAny = false ∧ ¬ last <:+ text := by
    rw [Bool.and_eq_true,Bool.not_eq_true',Bool.not_eq_true',← hsuffixes,Bool.not_eq_true]
  have hstands : ¬ (endsWithAny = false ∧ ¬ last <:+ text) → endsWithAny = false →
      ∀ segment ∈ (next :: others).getLast?, segment <:+ text := by
    intro hn hf segment hs
    rw [hlast] at hs
    cases hs
    by_contra hc
    exact hn ⟨hf,hc⟩
  cases startsWithAny with
  | true =>
    rw [if_neg (by simp)]
    by_cases hend : endsWithAny = false ∧ ¬ last <:+ text
    · rw [if_pos (hends.mpr hend)]
      refine iff_of_false Bool.false_ne_true ?_
      rintro ⟨gap,rest,rfl,hrest⟩
      exact hend.2 ((hsuffix hend.1 hrest).trans ⟨gap ++ first,List.append_assoc ..⟩)
    · rw [if_neg (mt hends.mp hend)]
      refine orderedLoop_iff finder [] text (Or.inr rfl) (Nat.zero_add _).symm
        (Or.inl (List.cons_ne_nil _ _)) hne ?_
      rw [List.getLast?_cons_cons]
      exact hstands hend
  | false =>
    by_cases hstart : first <+: text
    · obtain ⟨rest,rfl⟩ := hstart
      have hrest : SegmentsMatch false endsWithAny (first :: next :: others) (first ++ rest) ↔
          Spread endsWithAny (next :: others) rest := by
        constructor
        · rintro ⟨rest',h,hs⟩
          rw [List.append_cancel_left h]
          exact hs
        · intro hs
          exact ⟨rest,rfl,hs⟩
      rw [hprefixes.mpr (List.prefix_append ..),if_neg (by simp),hrest]
      by_cases hend : endsWithAny = false ∧ ¬ last <:+ first ++ rest
      · rw [if_pos (hends.mpr hend)]
        exact iff_of_false Bool.false_ne_true fun hs =>
          hend.2 ((hsuffix hend.1 hs).trans (List.suffix_append _ _))
      · rw [if_neg (mt hends.mp hend)]
        exact orderedLoop_iff finder first rest (Or.inl Nat.one_ne_zero) (Nat.add_comm _ 1)
          (Or.inl (List.cons_ne_nil _ _)) (fun s hs => hne s (List.mem_cons_of_mem _ hs)) (hstands hend)
    · rw [Bool.not_eq_true _ |>.mp (mt hprefixes.mp hstart),if_pos (by rfl)]
      refine iff_of_false Bool.false_ne_true ?_
      rintro ⟨rest,rfl,-⟩
      exact hstart (List.prefix_append ..)

theorem mem_segments_ne {parts : List (List Char)}
    (h : (parts.filter fun p => !p.isEmpty) = segments) : ∀ segment ∈ segments, segment ≠ [] := by
  intro segment hs
  rw [← h,List.mem_filter] at hs
  simpa using hs.2

/-- The fast path decides a pattern that is not empty. -/
theorem fastLikePattern_matches {pattern : List Char} {escape : Option Char} {fast : FastLikePattern}
    (h : fastLikePattern pattern escape = some fast) (hne : pattern ≠ []) (text : List Char) :
    fast.matches finder text = true ↔ SqlLike writeSelf escape pattern text := by
  unfold fastLikePattern at h
  split_ifs at h with hslow
  rw [not_or,Bool.not_eq_true,Option.isSome_eq_false_iff,Option.isNone_iff_eq_none] at hslow
  obtain ⟨rfl,hone⟩ := hslow
  rcases pattern_cases hone with ⟨hmany,hparts,hlike⟩ |
    ⟨startsWithAny,endsWithAny,segments,hstarts,hends,hsegments,hanchor,hlast,hlike⟩
  · have hhead : pattern.head? ≠ some '%' := fun hh => hmany (List.mem_of_head? hh)
    have hback : pattern.getLast? ≠ some '%' := fun hh => hmany (List.mem_of_getLast? hh)
    rw [hparts,List.filter_cons_of_pos (by simpa using hne)] at h
    simp only [List.filter_nil,decide_eq_false hhead,decide_eq_false hback] at h
    cases h
    rw [hlike]
    exact decide_eq_true_iff
  · have hsegne := mem_segments_ne hsegments
    have hs : decide (pattern.head? = some '%') = startsWithAny := by
      rw [Bool.eq_iff_iff,decide_eq_true_iff,hstarts]
    have he : decide (pattern.getLast? = some '%') = endsWithAny := by
      rw [Bool.eq_iff_iff,decide_eq_true_iff,hends]
    rw [hsegments,hs,he] at h
    rw [hlike]
    match segments with
    | [] =>
      cases h
      cases startsWithAny with
      | false => exact absurd rfl (hanchor rfl)
      | true => exact iff_of_true rfl (Or.inl (hlast rfl))
    | [segment] =>
      have hseg : segment ≠ [] := hsegne segment (by simp)
      cases startsWithAny with
      | false =>
        obtain rfl : endsWithAny = true := hlast rfl
        cases h
        refine List.isPrefixOf_iff_prefix.trans ⟨?_,?_⟩
        · rintro ⟨rest,rfl⟩
          exact ⟨rest,rfl,Or.inl rfl⟩
        · rintro ⟨rest,rfl,-⟩
          exact List.prefix_append ..
      | true =>
        cases endsWithAny with
        | false =>
          cases h
          exact List.isSuffixOf_iff_suffix.trans spread_last.symm
        | true =>
          cases h
          have hfind := finder.find_none (utf8.encode segment) (utf8.encode text)
          rw [utf8.encode_infix_iff hseg] at hfind
          change (finder.find _ _).isSome = true ↔ Spread true [segment] text
          rw [spread_open,Option.isSome_iff_ne_none]
          exact not_iff_comm.mp hfind.symm
    | first :: next :: others =>
      cases h
      exact orderedMatches_iff finder (by simp) hsegne text

theorem fastLikePattern_nil : fastLikePattern [] none = some .all := rfl

end Ordered
end Dodam.Execution
