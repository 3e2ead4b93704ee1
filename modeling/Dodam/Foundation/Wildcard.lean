import Dodam.Foundation.Replace

/-! # Wildcard patterns

A pattern is a list of tokens, each of which takes a part of the matched text.
-/
namespace Dodam.Foundation
variable {α : Type*}

inductive WildToken (α : Type*)
  | anyMany
  | anyOne
  | literal (a : α)
deriving DecidableEq

def WildToken.Takes : WildToken α → List α → Prop
  | anyMany,_ => True
  | anyOne,part => ∃ a, part = [a]
  | literal a,part => part = [a]

def Likes : List (WildToken α) → List α → Prop
  | [],text => text = []
  | token :: tokens,text => ∃ part rest, text = part ++ rest ∧ token.Takes part ∧ Likes tokens rest

variable {s tokens : List (WildToken α)} {text : List α}

theorem likes_append {t : List (WildToken α)} :
    Likes (s ++ t) text ↔ ∃ a b, text = a ++ b ∧ Likes s a ∧ Likes t b := by
  induction s generalizing text with
  | nil =>
    constructor
    · intro h
      exact ⟨[],text,rfl,rfl,h⟩
    · rintro ⟨a,b,rfl,rfl,h⟩
      exact h
  | cons token s ih =>
    constructor
    · rintro ⟨part,rest,rfl,htake,h⟩
      obtain ⟨a,b,rfl,ha,hb⟩ := ih.mp h
      exact ⟨part ++ a,b,(List.append_assoc ..).symm,⟨part,a,rfl,htake,ha⟩,hb⟩
    · rintro ⟨a,b,rfl,⟨part,rest,rfl,htake,ha⟩,hb⟩
      exact ⟨part,rest ++ b,List.append_assoc ..,htake,ih.mpr ⟨rest,b,rfl,ha,hb⟩⟩

theorem likes_singleton {token : WildToken α} : Likes [token] text ↔ token.Takes text := by
  constructor
  · rintro ⟨part,rest,rfl,htake,rfl⟩
    rw [List.append_nil]
    exact htake
  · intro h
    exact ⟨text,[],(List.append_nil _).symm,h,rfl⟩

theorem likes_anyMany :
    Likes (.anyMany :: tokens) text ↔ ∃ gap rest, text = gap ++ rest ∧ Likes tokens rest := by
  constructor
  · rintro ⟨gap,rest,h,-,hrest⟩
    exact ⟨gap,rest,h,hrest⟩
  · rintro ⟨gap,rest,h,hrest⟩
    exact ⟨gap,rest,h,trivial,hrest⟩

theorem likes_literal {a : α} :
    Likes (.literal a :: tokens) text ↔ ∃ rest, text = a :: rest ∧ Likes tokens rest := by
  constructor
  · rintro ⟨_,rest,rfl,rfl,hrest⟩
    exact ⟨rest,rfl,hrest⟩
  · rintro ⟨rest,rfl,hrest⟩
    exact ⟨[a],rest,rfl,rfl,hrest⟩

theorem likes_anyOne :
    Likes (.anyOne :: tokens) text ↔ ∃ a rest, text = a :: rest ∧ Likes tokens rest := by
  constructor
  · rintro ⟨_,rest,rfl,⟨a,rfl⟩,hrest⟩
    exact ⟨a,rest,rfl,hrest⟩
  · rintro ⟨a,rest,rfl,hrest⟩
    exact ⟨[a],rest,rfl,⟨a,rfl⟩,hrest⟩

theorem likes_literals {letters : List α} :
    Likes (letters.map .literal ++ tokens) text ↔ ∃ rest, text = letters ++ rest ∧ Likes tokens rest := by
  induction letters generalizing text with
  | nil => simp
  | cons a letters ih =>
    rw [List.map_cons,List.cons_append,likes_literal]
    constructor
    · rintro ⟨rest,rfl,h⟩
      obtain ⟨rest',rfl,h'⟩ := ih.mp h
      exact ⟨rest',rfl,h'⟩
    · rintro ⟨rest,rfl,h⟩
      exact ⟨letters ++ rest,rfl,ih.mpr ⟨rest,rfl,h⟩⟩

theorem likes_anyMany_twice :
    Likes (s ++ [.anyMany,.anyMany]) text ↔ Likes (s ++ [.anyMany]) text := by
  rw [likes_append,likes_append]
  have hone : ∀ b : List α, Likes [.anyMany,.anyMany] b ↔ Likes [.anyMany] b := fun b =>
    iff_of_true ⟨[],b,rfl,trivial,likes_singleton.mpr trivial⟩ (likes_singleton.mpr trivial)
  simp only [hone]

section Segments

/-- Segments one behind the other with gaps before each, up to the end unless it is open. -/
def Spread (endsWithAny : Bool) : List (List α) → List α → Prop
  | [],text => endsWithAny = true ∨ text = []
  | segment :: segments,text =>
    ∃ gap rest, text = gap ++ (segment ++ rest) ∧ Spread endsWithAny segments rest

variable {segment text part : List α} {segments parts : List (List α)}

theorem spread_last : Spread false [segment] text ↔ segment <:+ text := by
  constructor
  · rintro ⟨gap,rest,rfl,hrest⟩
    obtain rfl := hrest.resolve_left Bool.false_ne_true
    exact ⟨gap,by rw [List.append_nil]⟩
  · rintro ⟨gap,rfl⟩
    exact ⟨gap,[],by rw [List.append_nil],Or.inr rfl⟩

theorem spread_open : Spread true [segment] text ↔ segment <:+: text := by
  constructor
  · rintro ⟨gap,rest,rfl,-⟩
    exact ⟨gap,rest,List.append_assoc ..⟩
  · rintro ⟨gap,rest,rfl⟩
    exact ⟨gap,rest,List.append_assoc ..,Or.inl rfl⟩

theorem Spread.last_suffix (h : Spread false segments text) :
    ∀ segment ∈ segments.getLast?, segment <:+ text := by
  induction segments generalizing text with
  | nil => simp
  | cons segment segments ih =>
    obtain ⟨gap,rest,rfl,hrest⟩ := h
    cases segments with
    | nil =>
      rintro _ ⟨⟩
      exact spread_last.mp ⟨gap,rest,rfl,hrest⟩
    | cons next segments =>
      rw [List.getLast?_cons_cons]
      intro last hlast
      exact (ih hrest last hlast).trans ⟨gap ++ segment,List.append_assoc ..⟩

def PartsMatch : List (List α) → List α → Prop
  | [],_ => False
  | [part],text => text = part
  | part :: next :: parts,text =>
    ∃ gap rest, text = part ++ (gap ++ rest) ∧ PartsMatch (next :: parts) rest

theorem Spread.prepend {endsWithAny : Bool}
    (h : segments ≠ [] ∨ endsWithAny = true) (hs : Spread endsWithAny segments text)
    (pre : List α) : Spread endsWithAny segments (pre ++ text) := by
  cases segments with
  | nil => exact Or.inl (h.resolve_left fun hne => hne rfl)
  | cons segment segments =>
    obtain ⟨gap,rest,rfl,hrest⟩ := hs
    exact ⟨pre ++ gap,rest,(List.append_assoc ..).symm,hrest⟩

def lastEmpty : List (List α) → Bool
  | [] => false
  | [part] => part.isEmpty
  | _ :: part :: parts => lastEmpty (part :: parts)

theorem lastEmpty_of_filter (hne : parts ≠ [])
    (h : (parts.filter fun p => !p.isEmpty) = []) : lastEmpty parts = true := by
  rw [List.filter_eq_nil_iff] at h
  induction parts with
  | nil => exact absurd rfl hne
  | cons part parts ih =>
    cases parts with
    | nil => simpa [lastEmpty] using h part (by simp)
    | cons next parts => exact ih (List.cons_ne_nil _ _) fun p hp => h p (List.mem_cons_of_mem _ hp)

/-- Parts behind a gap are the segments among them. -/
theorem gap_parts_iff : (∃ gap rest, text = gap ++ rest ∧ PartsMatch (part :: parts) rest) ↔
      Spread (lastEmpty (part :: parts)) ((part :: parts).filter fun p => !p.isEmpty) text := by
  induction parts generalizing part text with
  | nil =>
    cases part with
    | nil => exact iff_of_true ⟨text,[],(List.append_nil _).symm,rfl⟩ (Or.inl rfl)
    | cons a part =>
      constructor
      · rintro ⟨gap,rest,rfl,rfl⟩
        exact ⟨gap,[],by rw [List.append_nil],Or.inr rfl⟩
      · rintro ⟨gap,rest,rfl,hrest⟩
        obtain rfl := hrest.resolve_left Bool.false_ne_true
        exact ⟨gap,a :: part,by rw [List.append_nil],rfl⟩
  | cons next parts ih =>
    have hrest : ∀ text, (∃ gap rest, text = gap ++ rest ∧ PartsMatch (part :: next :: parts) rest) ↔
        ∃ gap rest, text = gap ++ (part ++ rest) ∧
          Spread (lastEmpty (next :: parts)) ((next :: parts).filter fun p => !p.isEmpty) rest := by
      intro text
      constructor
      · rintro ⟨gap,_,rfl,gap',rest,rfl,h⟩
        exact ⟨gap,gap' ++ rest,rfl,ih.mp ⟨gap',rest,rfl,h⟩⟩
      · rintro ⟨gap,rest,rfl,h⟩
        obtain ⟨gap',rest,rfl,hparts⟩ := ih.mpr h
        exact ⟨gap,_,rfl,gap',rest,rfl,hparts⟩
    rw [hrest]
    cases part with
    | nil =>
      -- an empty part lets the two gaps run together
      constructor
      · rintro ⟨gap,rest,rfl,h⟩
        obtain ⟨gap',rest,rfl,hparts⟩ := ih.mpr h
        exact ih.mp ⟨gap ++ gap',rest,by simp,hparts⟩
      · intro h
        exact ⟨[],text,rfl,h⟩
    | cons a part => exact Iff.rfl

theorem partsMatch_iff {next : List α} :
    PartsMatch (part :: next :: parts) text ↔ ∃ rest, text = part ++ rest ∧
      Spread (lastEmpty (next :: parts)) ((next :: parts).filter fun p => !p.isEmpty) rest := by
  constructor
  · rintro ⟨gap,rest,rfl,h⟩
    exact ⟨_,rfl,gap_parts_iff.mp ⟨gap,rest,rfl,h⟩⟩
  · rintro ⟨rest,rfl,h⟩
    obtain ⟨gap,rest,rfl,hparts⟩ := gap_parts_iff.mpr h
    exact ⟨gap,rest,rfl,hparts⟩

theorem spread_first_iff {endsWithAny : Bool}
    (hopen : segments ≠ [] ∨ endsWithAny = true) {gap rest : List α}
    (hfirst : ∀ gap' rest', gap ++ (segment ++ rest) = gap' ++ (segment ++ rest') →
      gap.length ≤ gap'.length) :
    Spread endsWithAny (segment :: segments) (gap ++ (segment ++ rest)) ↔
      Spread endsWithAny segments rest := by
  constructor
  · rintro ⟨gap',rest',h,hs⟩
    have hle := hfirst gap' rest' h
    have hsuffix : rest' <:+ rest := by
      have hlater : rest' <:+ gap ++ (segment ++ rest) := ⟨gap' ++ segment,by rw [h,List.append_assoc]⟩
      have hearlier : rest <:+ gap ++ (segment ++ rest) := ⟨gap ++ segment,List.append_assoc ..⟩
      refine List.suffix_of_suffix_length_le hlater hearlier ?_
      · have hlen := congrArg List.length h
        simp only [List.length_append] at hlen
        omega
    obtain ⟨pre,rfl⟩ := hsuffix
    exact hs.prepend hopen pre
  · intro h
    exact ⟨gap,rest,rfl,h⟩

end Segments
end Dodam.Foundation
