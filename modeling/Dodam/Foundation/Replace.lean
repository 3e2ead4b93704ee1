import Mathlib.Data.List.DropRight
import Mathlib.Data.List.Infix

/-! # Replacing in lists

A list with gaps is what is left of a text when parts of it are taken out. The same gaps filled
with a pattern give the text back, and filled with a replacement they give what replacing
writes.
-/
namespace Dodam.Foundation

variable {α : Type*}

def fillGaps (filler : List α) (gapped : List (Option α)) : List α :=
  gapped.flatMap fun part => part.elim filler fun a => [a]

section Fill
variable {filler : List α}

@[simp] theorem fillGaps_nil : fillGaps filler [] = [] := rfl

@[simp] theorem fillGaps_some (a : α) (gapped : List (Option α)) : fillGaps filler (some a :: gapped) = a :: fillGaps filler gapped := rfl

@[simp] theorem fillGaps_none (gapped : List (Option α)) : fillGaps filler (none :: gapped) = filler ++ fillGaps filler gapped := rfl

theorem fillGaps_append (a b : List (Option α)) : fillGaps filler (a ++ b) = fillGaps filler a ++ fillGaps filler b :=
  List.flatMap_append

@[simp] theorem fillGaps_map_some (l : List α) : fillGaps filler (l.map some) = l := by
  induction l with
  | nil => rfl
  | cons a l ih =>
    rw [List.map_cons,fillGaps_some,ih]

end Fill

section Occurrences
variable [BEq α]

/-- The first occurrence of a pattern and the ones behind it that do not overlap, as gaps; of the occurrence that is
being passed `skip` elements are left. -/
def occurrences (pattern : List α) : ℕ → List α → List (Option α)
  | _,[] => []
  | skip + 1,_ :: l => occurrences pattern skip l
  | 0,a :: l =>
    if pattern.isPrefixOf (a :: l) then none :: occurrences pattern (pattern.length - 1) l
    else some a :: occurrences pattern 0 l

end Occurrences
end Dodam.Foundation

/-! ## Cutting lists

Splitting a list at a separator, and trimming both of its ends.
-/
namespace Dodam.Foundation

section Split
variable {α : Type*} [DecidableEq α]

/-- The parts before and after the first separator. -/
def splitOnce (sep : α) : List α → Option (List α × List α)
  | [] => none
  | a :: l => if a = sep then some ([],l) else (splitOnce sep l).map fun p => (a :: p.1,p.2)

variable {sep : α} {l a part : List α}

theorem splitOnce_eq_none : splitOnce sep l = none ↔ sep ∉ l := by
  induction l with
  | nil => simp [splitOnce]
  | cons a l ih =>
    unfold splitOnce
    split_ifs with h
    · simp [h]
    · simp [ih,Ne.symm h]

theorem splitOnce_append (h : sep ∉ a) (b : List α) :
    splitOnce sep (a ++ sep :: b) = some (a,b) := by
  induction a with
  | nil => simp [splitOnce]
  | cons x a ih =>
    rw [List.mem_cons,not_or] at h
    rw [List.cons_append,splitOnce,if_neg (Ne.symm h.1),ih h.2]
    rfl

theorem splitOnce_eq_some {b : List α} :
    splitOnce sep l = some (a,b) ↔ l = a ++ sep :: b ∧ sep ∉ a := by
  refine ⟨fun h => ?_,fun h => h.1 ▸ splitOnce_append h.2 b⟩
  induction l generalizing a with
  | nil => simp [splitOnce] at h
  | cons x l ih =>
    unfold splitOnce at h
    split_ifs at h with hx
    · cases h
      exact ⟨by rw [hx]; rfl,List.not_mem_nil⟩
    · obtain ⟨⟨a',b'⟩,hs,he⟩ := Option.map_eq_some_iff.mp h
      cases he
      obtain ⟨rfl,hn⟩ := ih hs
      exact ⟨rfl,by simp [hn,Ne.symm hx]⟩

def splitAll (sep : α) : List α → List (List α)
  | [] => [[]]
  | a :: l =>
    if a = sep then [] :: splitAll sep l
    else
      match splitAll sep l with
      | [] => [[a]]
      | part :: parts => (a :: part) :: parts

theorem splitAll_cons_self (sep : α) (l : List α) : splitAll sep (sep :: l) = [] :: splitAll sep l :=
  if_pos rfl

theorem splitAll_cons_of_ne {a : α} {parts : List (List α)} (ha : a ≠ sep)
    (h : splitAll sep l = part :: parts) : splitAll sep (a :: l) = (a :: part) :: parts := by
  unfold splitAll
  rw [if_neg ha,h]

theorem exists_splitAll (sep : α) (l : List α) : ∃ part parts, splitAll sep l = part :: parts := by
  induction l with
  | nil => exact ⟨[],[],rfl⟩
  | cons a l ih =>
    by_cases ha : a = sep
    · rw [ha,splitAll_cons_self]
      exact ⟨[],_,rfl⟩
    · obtain ⟨part,parts,h⟩ := ih
      exact ⟨a :: part,parts,splitAll_cons_of_ne ha h⟩

theorem splitAll_of_notMem (h : sep ∉ l) : splitAll sep l = [l] := by
  induction l with
  | nil => rfl
  | cons a l ih =>
    rw [List.mem_cons,not_or] at h
    exact splitAll_cons_of_ne (Ne.symm h.1) (ih h.2)

theorem mem_splitAll (sep : α) {a : α} (h : a ∈ l) :
    a = sep ∨ ∃ part ∈ splitAll sep l, a ∈ part := by
  induction l with
  | nil => exact absurd h List.not_mem_nil
  | cons b l ih =>
    by_cases hb : b = sep
    · rw [hb,splitAll_cons_self]
      rcases List.mem_cons.mp h with rfl | h
      · exact .inl hb
      · exact (ih h).imp_right fun ⟨part,hpart,hmem⟩ => ⟨part,List.mem_cons_of_mem _ hpart,hmem⟩
    · obtain ⟨part,parts,hparts⟩ := exists_splitAll sep l
      rw [hparts] at ih
      rw [splitAll_cons_of_ne hb hparts]
      rcases List.mem_cons.mp h with rfl | h
      · exact .inr ⟨_,List.mem_cons_self,List.mem_cons_self⟩
      · refine (ih h).imp_right fun ⟨part',hpart,hmem⟩ => ?_
        rcases List.mem_cons.mp hpart with rfl | hpart
        · exact ⟨_,List.mem_cons_self,List.mem_cons_of_mem _ hmem⟩
        · exact ⟨part',List.mem_cons_of_mem _ hpart,hmem⟩

theorem notMem_of_mem_splitAll (h : part ∈ splitAll sep l) : sep ∉ part := by
  induction l generalizing part with
  | nil =>
    obtain rfl := List.mem_singleton.mp h
    exact List.not_mem_nil
  | cons a l ih =>
    by_cases ha : a = sep
    · rw [ha,splitAll_cons_self] at h
      rcases List.mem_cons.mp h with rfl | h
      · exact List.not_mem_nil
      · exact ih h
    · obtain ⟨first,parts,hparts⟩ := exists_splitAll sep l
      rw [splitAll_cons_of_ne ha hparts] at h
      rw [hparts] at ih
      rcases List.mem_cons.mp h with rfl | h
      · rw [List.mem_cons,not_or]
        exact ⟨Ne.symm ha,ih List.mem_cons_self⟩
      · exact ih (List.mem_cons_of_mem _ h)

theorem splitAll_append (h : sep ∉ a) (b : List α) :
    splitAll sep (a ++ sep :: b) = a :: splitAll sep b := by
  induction a with
  | nil => exact splitAll_cons_self sep b
  | cons c a ih =>
    rw [List.mem_cons,not_or] at h
    exact splitAll_cons_of_ne (Ne.symm h.1) (ih h.2)

theorem splitAll_singleton (h : splitAll sep l = [part]) : l = part ∧ sep ∉ l := by
  induction l generalizing part with
  | nil =>
    cases h
    exact ⟨rfl,List.not_mem_nil⟩
  | cons a l ih =>
    obtain ⟨part',parts',hparts⟩ := exists_splitAll sep l
    by_cases ha : a = sep
    · rw [ha,splitAll_cons_self,hparts] at h
      cases h
    · rw [splitAll_cons_of_ne ha hparts] at h
      cases h
      obtain ⟨rfl,hn⟩ := ih hparts
      exact ⟨rfl,by simp [hn,Ne.symm ha]⟩

end Split

section Trim
variable {α : Type*} (p : α → Bool)

/-- A list without the elements at its ends that satisfy `p`. -/
def trimBy (l : List α) : List α := (l.dropWhile p).rdropWhile p

theorem trimBy_split (l : List α) :
    ∃ pre post, l = pre ++ trimBy p l ++ post ∧ (∀ a ∈ pre, p a = true) ∧ ∀ a ∈ post, p a = true := by
  have hpost : trimBy p l ++ (l.dropWhile p).rtakeWhile p = l.dropWhile p :=
    List.rdropWhile_append_rtakeWhile
  refine ⟨l.takeWhile p,(l.dropWhile p).rtakeWhile p,?_,fun a ha => List.mem_takeWhile_imp ha,
    fun a ha => List.mem_rtakeWhile_imp ha⟩
  rw [List.append_assoc,hpost,List.takeWhile_append_dropWhile]

theorem rdropWhile_append {body post : List α} (hpost : ∀ a ∈ post, p a = true) :
    (body ++ post).rdropWhile p = body.rdropWhile p := by
  induction post using List.reverseRecOn with
  | nil => rw [List.append_nil]
  | append_singleton post a ih =>
    rw [← List.append_assoc,List.rdropWhile_concat_pos p _ a (hpost a (by simp))]
    exact ih fun b hb => hpost b (by simp [hb])

theorem trimBy_append {pre body post : List α} (hpre : ∀ a ∈ pre, p a = true)
    (hbody : ∀ a ∈ body, p a = false) (hpost : ∀ a ∈ post, p a = true) :
    trimBy p (pre ++ body ++ post) = body := by
  have hself : body.rdropWhile p = body := by
    rw [List.rdropWhile_eq_self_iff]
    intro hl
    rw [hbody _ (List.getLast_mem hl)]
    exact Bool.false_ne_true
  unfold trimBy
  rw [List.append_assoc,List.dropWhile_append_of_pos hpre]
  cases body with
  | nil =>
    have hnil : ((post.dropWhile p).rdropWhile p : List α) = [] := by
      rw [List.rdropWhile_eq_nil_iff]
      intro a ha
      exact hpost a ((List.dropWhile_sublist p).subset ha)
    rw [List.nil_append]
    exact hnil
  | cons c body =>
    rw [List.cons_append,List.dropWhile_cons_of_neg (by rw [hbody c (by simp)]; exact Bool.false_ne_true),
      ← List.cons_append,rdropWhile_append p hpost,hself]

end Trim
end Dodam.Foundation
