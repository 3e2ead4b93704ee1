import Mathlib.Algebra.BigOperators.Group.List.Basic
import Mathlib.Data.List.Range
import Mathlib.Tactic.Linarith

/-! # Runs of equal values

A list cut into runs, each a value with a number of repetitions. The runs are canonical when
none is empty and neighbours differ.
-/
namespace Dodam.Foundation

variable {α : Type*}

def expandRuns (runs : List (α × ℕ)) : List α := runs.flatMap fun r => List.replicate r.2 r.1

@[simp] theorem expandRuns_nil : expandRuns ([] : List (α × ℕ)) = [] := rfl

@[simp] theorem expandRuns_cons (r : α × ℕ) (runs : List (α × ℕ)) :
    expandRuns (r :: runs) = List.replicate r.2 r.1 ++ expandRuns runs :=
  List.flatMap_cons ..

@[simp] theorem expandRuns_append (runs runs' : List (α × ℕ)) :
    expandRuns (runs ++ runs') = expandRuns runs ++ expandRuns runs' :=
  List.flatMap_append ..

theorem length_expandRuns (runs : List (α × ℕ)) :
    (expandRuns runs).length = (runs.map Prod.snd).sum := by
  induction runs with
  | nil => rfl
  | cons r runs ih => simp [ih]

theorem count_expandRuns [DecidableEq α] (a : α) (runs : List (α × ℕ)) :
    (expandRuns runs).count a = ((runs.filter (·.1 = a)).map Prod.snd).sum := by
  induction runs with
  | nil => rfl
  | cons r runs ih =>
    rw [expandRuns_cons,List.count_append,ih,List.count_replicate]
    by_cases h : r.1 = a
    · simp [h]
    · simp [h]

/-- No run is empty and neighbours hold different values. -/
def CanonicalRuns (runs : List (α × ℕ)) : Prop :=
  (∀ r ∈ runs, 0 < r.2) ∧ runs.IsChain (fun r s => r.1 ≠ s.1)

theorem canonicalRuns_nil : CanonicalRuns ([] : List (α × ℕ)) := ⟨by simp,.nil⟩

theorem canonicalRuns_singleton {a : α} {n : ℕ} (hn : 0 < n) : CanonicalRuns [(a,n)] :=
  ⟨by simpa using hn,.singleton _⟩

theorem CanonicalRuns.grow {runs : List (α × ℕ)} {a : α} {n m : ℕ}
    (h : CanonicalRuns (runs ++ [(a,n)])) (hm : n ≤ m) : CanonicalRuns (runs ++ [(a,m)]) := by
  obtain ⟨hpos,hchain⟩ := h
  refine ⟨?_,?_⟩
  · intro r hr
    rcases List.mem_append.mp hr with hr | hr
    · exact hpos r (List.mem_append_left _ hr)
    · rw [List.mem_singleton.mp hr]
      exact (hpos (a,n) (by simp)).trans_le hm
  · rw [List.isChain_append] at hchain ⊢
    exact ⟨hchain.1,.singleton _,fun x hx y hy => by
      cases Option.mem_some_iff.mp hy
      exact hchain.2.2 x hx (a,n) rfl⟩

theorem CanonicalRuns.next {runs : List (α × ℕ)} {a b : α} {n m : ℕ}
    (h : CanonicalRuns (runs ++ [(a,n)])) (hab : a ≠ b) (hm : 0 < m) :
    CanonicalRuns (runs ++ [(a,n)] ++ [(b,m)]) := by
  obtain ⟨hpos,hchain⟩ := h
  refine ⟨?_,?_⟩
  · intro r hr
    rcases List.mem_append.mp hr with hr | hr
    · exact hpos r hr
    · rw [List.mem_singleton.mp hr]
      exact hm
  · refine hchain.append (.singleton _) ?_
    intro x hx y hy
    rw [List.getLast?_concat] at hx
    cases Option.mem_some_iff.mp hx
    cases Option.mem_some_iff.mp hy
    exact hab

/-- The intervals, given by start and length, are nonempty, sorted and disjoint, and cover the
positions where `p` holds. -/
structure Marks (p : ℕ → Prop) (intervals : List (ℕ × ℕ)) : Prop where
  nonempty : ∀ r ∈ intervals, 0 < r.2
  sorted : intervals.Pairwise (fun r s => r.1 + r.2 ≤ s.1)
  covers : ∀ i, p i ↔ ∃ r ∈ intervals, r.1 ≤ i ∧ i < r.1 + r.2

/-- Whether a position is in one of the intervals. -/
def inIntervals (intervals : List (ℕ × ℕ)) (i : ℕ) : Bool := intervals.any fun r => r.1 ≤ i && i < r.1 + r.2

variable {intervals : List (ℕ × ℕ)} {p q : ℕ → Prop}

theorem marks_inIntervals (hnonempty : ∀ r ∈ intervals, 0 < r.2)
    (hsorted : intervals.Pairwise fun r s => r.1 + r.2 ≤ s.1) : Marks (inIntervals intervals · = true) intervals :=
  ⟨hnonempty,hsorted,fun i => by simp [inIntervals]⟩

theorem marks_nil (h : ∀ i, ¬p i) : Marks p [] :=
  ⟨by simp,.nil,fun i => by simp [h i]⟩

theorem Marks.congr (h : Marks p intervals) (hq : ∀ i, q i ↔ p i) : Marks q intervals :=
  ⟨h.nonempty,h.sorted,fun i => (hq i).trans (h.covers i)⟩

theorem Marks.push {start length : ℕ}
    (h : Marks p intervals) (hlength : 0 < length) (hp : ∀ i, p i → i < start)
    (hq : ∀ i, q i ↔ p i ∨ start ≤ i ∧ i < start + length) :
    Marks q (intervals ++ [(start,length)]) := by
  refine ⟨?_,?_,?_⟩
  · intro r hr
    rcases List.mem_append.mp hr with hr | hr
    · exact h.nonempty r hr
    · rw [List.mem_singleton.mp hr]
      exact hlength
  · refine List.pairwise_append.mpr ⟨h.sorted,List.pairwise_singleton _ _,?_⟩
    intro r hr s hs
    rw [List.mem_singleton.mp hs]
    have hpos := h.nonempty r hr
    -- the last position of the interval is marked, so it lies below the new one
    have hlast := hp (r.1 + r.2 - 1) ((h.covers _).mpr ⟨r,hr,by omega,by omega⟩)
    omega
  · intro i
    rw [hq,h.covers]
    simp only [List.mem_append,List.mem_singleton,or_and_right,exists_or,exists_eq_left]

end Dodam.Foundation

/-! ## Maximal runs of positions

The positions of the flags that are set, counted from some position on, as
single positions and as runs. The runs are maximal when none is empty and there
is a gap between neighbours.
-/
namespace Dodam.Foundation

/-- The positions of the flags that are set; the first flag has position `i`. -/
def markedFrom : ℕ → List Bool → List ℕ
  | _, [] => []
  | i, flag :: flags => if flag then i :: markedFrom (i + 1) flags else markedFrom (i + 1) flags

@[simp] theorem markedFrom_nil (i : ℕ) : markedFrom i [] = [] := rfl

theorem markedFrom_append (i : ℕ) (flags flags' : List Bool) :
    markedFrom i (flags ++ flags') = markedFrom i flags ++ markedFrom (i + flags.length) flags' := by
  induction flags generalizing i with
  | nil => simp
  | cons flag flags ih =>
    have hlen : i + (flag :: flags).length = i + 1 + flags.length := by
      rw [List.length_cons]
      omega
    rw [List.cons_append,markedFrom,markedFrom,ih,hlen]
    split_ifs
    · rfl
    · rfl

variable {flags : List Bool}

theorem markedFrom_all (h : ∀ flag ∈ flags, flag = true) (i : ℕ) :
    markedFrom i flags = List.range' i flags.length := by
  induction flags generalizing i with
  | nil => rfl
  | cons flag flags ih =>
    rw [markedFrom,if_pos (h flag List.mem_cons_self),ih fun f hf => h f (List.mem_cons_of_mem _ hf),
      List.length_cons,List.range'_succ]

theorem markedFrom_none (h : ∀ flag ∈ flags, flag = false) (i : ℕ) : markedFrom i flags = [] := by
  induction flags generalizing i with
  | nil => rfl
  | cons flag flags ih =>
    rw [markedFrom,h flag List.mem_cons_self,ih fun f hf => h f (List.mem_cons_of_mem _ hf)]
    exact if_neg Bool.false_ne_true

theorem length_markedFrom (i : ℕ) (flags : List Bool) : (markedFrom i flags).length = flags.count true := by
  induction flags generalizing i with
  | nil => rfl
  | cons flag flags ih =>
    cases flag with
    | true => rw [markedFrom,if_pos rfl,List.length_cons,ih,List.count_cons_self]
    | false => rw [markedFrom,if_neg Bool.false_ne_true,ih,List.count_cons_of_ne Bool.false_ne_true]

theorem mem_markedFrom {i j : ℕ} : j ∈ markedFrom i flags ↔ i ≤ j ∧ flags[j - i]? = some true := by
  induction flags generalizing i with
  | nil => simp
  | cons flag flags ih =>
    have hrest : j ∈ markedFrom (i + 1) flags ↔ i + 1 ≤ j ∧ (flag :: flags)[j - i]? = some true := by
      rw [ih]
      refine and_congr_right fun hle => ?_
      rw [show j - i = j - (i + 1) + 1 by omega,List.getElem?_cons_succ]
    rcases Nat.lt_trichotomy j i with hlt | rfl | hgt
    · rw [markedFrom]
      split_ifs
      · rw [List.mem_cons,hrest]
        omega
      · rw [hrest]
        omega
    · have hzero : (flag :: flags)[j - j]? = some flag := by rw [Nat.sub_self,List.getElem?_cons_zero]
      have hnot : j ∉ markedFrom (j + 1) flags := fun h => absurd (hrest.mp h).1 (by omega)
      rw [markedFrom,hzero]
      cases flag with
      | true => simp
      | false => simpa using hnot
    · have hle : i + 1 ≤ j ↔ i ≤ j := iff_of_true hgt hgt.le
      rw [markedFrom]
      split_ifs
      · rw [List.mem_cons,hrest,hle]
        exact or_iff_right hgt.ne'
      · rw [hrest,hle]

theorem markedFrom_sorted (i : ℕ) (flags : List Bool) : (markedFrom i flags).Pairwise (· < ·) := by
  induction flags generalizing i with
  | nil => exact .nil
  | cons flag flags ih =>
    rw [markedFrom]
    split_ifs
    · exact List.pairwise_cons.mpr ⟨fun j hj => (mem_markedFrom.mp hj).1,ih (i + 1)⟩
    · exact ih (i + 1)

/-- Runs, given by start and length, of the positions where `p` holds. -/
structure MaximalRuns (p : ℕ → Prop) (runs : List (ℕ × ℕ)) : Prop where
  nonempty : ∀ r ∈ runs, 0 < r.2
  apart : runs.Pairwise fun r s => r.1 + r.2 < s.1
  covers : ∀ i, p i ↔ ∃ r ∈ runs, r.1 ≤ i ∧ i < r.1 + r.2

theorem maximalRuns_nil {p : ℕ → Prop} (h : ∀ i, ¬p i) : MaximalRuns p [] :=
  ⟨by simp,.nil,fun i => by simp [h i]⟩

section Push
variable {p q : ℕ → Prop} {runs : List (ℕ × ℕ)} {start n : ℕ}

theorem MaximalRuns.grow (h : MaximalRuns p (runs ++ [(start,n)])) (hq : ∀ i, q i ↔ p i ∨ i = start + n) :
    MaximalRuns q (runs ++ [(start,n + 1)]) := by
  obtain ⟨hruns,-,hlast⟩ := List.pairwise_append.mp h.apart
  refine ⟨fun r hr => ?_,List.pairwise_append.mpr ⟨hruns,List.pairwise_singleton _ _,?_⟩,fun i => ?_⟩
  · rcases List.mem_append.mp hr with hr | hr
    · exact h.nonempty r (List.mem_append_left _ hr)
    · rw [List.mem_singleton.mp hr]
      exact Nat.succ_pos n
  · intro r hr s hs
    rw [List.mem_singleton.mp hs]
    exact hlast r hr (start,n) (List.mem_singleton_self _)
  · rw [hq,h.covers]
    simp only [List.mem_append,List.mem_singleton,or_and_right,exists_or,exists_eq_left]
    have hedge : start ≤ i ∧ i < start + (n + 1) ↔ (start ≤ i ∧ i < start + n) ∨ i = start + n := by omega
    rw [hedge,or_assoc]

theorem MaximalRuns.next (h : MaximalRuns p runs) (hgap : ∀ r ∈ runs, r.1 + r.2 < start)
    (hq : ∀ i, q i ↔ p i ∨ i = start) : MaximalRuns q (runs ++ [(start,1)]) := by
  refine ⟨fun r hr => ?_,List.pairwise_append.mpr ⟨h.apart,List.pairwise_singleton _ _,?_⟩,fun i => ?_⟩
  · rcases List.mem_append.mp hr with hr | hr
    · exact h.nonempty r hr
    · rw [List.mem_singleton.mp hr]
      exact Nat.one_pos
  · intro r hr s hs
    rw [List.mem_singleton.mp hs]
    exact hgap r hr
  · rw [hq,h.covers]
    simp only [List.mem_append,List.mem_singleton,or_and_right,exists_or,exists_eq_left]
    refine or_congr_right ?_
    omega

theorem MaximalRuns.stop_le (h : MaximalRuns p runs) {bound : ℕ} (hp : ∀ i, p i → i < bound) {r : ℕ × ℕ}
    (hr : r ∈ runs) : r.1 + r.2 ≤ bound := by
  have hpos := h.nonempty r hr
  have hlast := hp (r.1 + r.2 - 1) ((h.covers _).mpr ⟨r,hr,by omega,by omega⟩)
  omega

end Push

end Dodam.Foundation
