import Mathlib.Data.Int.Order.Basic
import Mathlib.Data.List.GetD
import Mathlib.Data.List.Nodup
import Dodam.Foundation.Fold

/-! # Lists in chunks

A list is cut into chunks of one length. Only the last may be shorter.
-/
namespace Dodam.Foundation

variable {α : Type*} {n : ℕ}

/-- The list in chunks of `n`, the last one possibly shorter. -/
inductive Chunks (n : ℕ) : List α → List (List α) → Prop
  | nil : Chunks n [] []
  | last {l : List α} (hne : l ≠ []) (hlt : l.length < n) : Chunks n l [l]
  | full {chunk rest : List α} {chunks : List (List α)} (hlen : chunk.length = n) (h : Chunks n rest chunks) :
    Chunks n (chunk ++ rest) (chunk :: chunks)

theorem Chunks.flatten {l : List α} {chunks : List (List α)} (h : Chunks n l chunks) : chunks.flatten = l := by
  induction h with
  | nil => simp
  | last => simp
  | full _ _ ih => simp [ih]

theorem Chunks.unique {l : List α} {chunks chunks' : List (List α)} (hn : 0 < n) (h : Chunks n l chunks)
    (h' : Chunks n l chunks') : chunks = chunks' := by
  induction h generalizing chunks' with
  | nil =>
    generalize hl : ([] : List α) = l at h'
    cases h' with
    | nil => simp
    | last hne => exact absurd hl.symm hne
    | full hlen =>
      have hnil := (List.append_eq_nil_iff.mp hl.symm).1
      simp [← hlen,hnil] at hn
  | @last l hne hlt =>
    cases h' with
    | nil => exact absurd rfl hne
    | last => simp
    | full hlen =>
      simp only [List.length_append] at hlt
      omega
  | @full chunk rest chunks hlen h ih =>
    generalize hl : chunk ++ rest = l at h'
    cases h' with
    | nil =>
      have hnil := (List.append_eq_nil_iff.mp hl).1
      simp [← hlen,hnil] at hn
    | last hne hlt =>
      simp only [← hl,List.length_append] at hlt
      omega
    | full hlen' h' =>
      obtain ⟨rfl,rfl⟩ := List.append_inj hl (hlen.trans hlen'.symm)
      simp [ih h']

end Dodam.Foundation

/-! ## Windows over the integers

Slots for the integers from a minimum on, one after the other. A window answers
what its slots hold; widening it changes no answer.
-/
namespace Dodam.Foundation

variable {α : Type*}

/-- What the slots from `min` on hold at `k`. -/
def windowGet (min : ℤ) (slots : List (Option α)) (k : ℤ) : Option α :=
  if min ≤ k then slots[(k - min).toNat]?.join else none

variable {min k : ℤ} {slots : List (Option α)}

theorem windowGet_eq_some {v : α} :
    windowGet min slots k = some v ↔ ∃ i : ℕ, k = min + i ∧ slots[i]? = some (some v) := by
  unfold windowGet
  split_ifs with h
  · constructor
    · intro hv
      exact ⟨(k - min).toNat,by omega,Option.join_eq_some_iff.mp hv⟩
    · rintro ⟨i,rfl,hi⟩
      have ht : (min + i - min).toNat = i := by omega
      rw [ht,hi]
      rfl
  · refine iff_of_false (by simp) ?_
    rintro ⟨i,rfl,-⟩
    omega

theorem windowGet_of_ge (h : min + slots.length ≤ k) : windowGet min slots k = none := by
  unfold windowGet
  rw [List.getElem?_eq_none (by omega)]
  exact ite_self none

theorem windowGet_of_lt (h : k < min) : windowGet min slots k = none :=
  if_neg (by omega)

theorem windowGet_replicate (min : ℤ) (n : ℕ) (k : ℤ) :
    windowGet min (List.replicate n (none : Option α)) k = none := by
  rw [← Option.not_isSome_iff_eq_none,Option.isSome_iff_exists]
  rintro ⟨v,hv⟩
  obtain ⟨i,-,hi⟩ := windowGet_eq_some.mp hv
  rw [List.getElem?_replicate] at hi
  split_ifs at hi
  cases Option.some.inj hi

theorem windowGet_set {key : ℤ} (hmin : min ≤ key)
    (hlen : key < min + slots.length) (v : α) (k : ℤ) :
    windowGet min (slots.set (key - min).toNat (some v)) k =
      if k = key then some v else windowGet min slots k := by
  unfold windowGet
  by_cases hk : k = key
  · subst hk
    rw [if_pos hmin,if_pos rfl,List.getElem?_set_self (by omega)]
    rfl
  · rw [if_neg hk]
    split_ifs with h
    · rw [List.getElem?_set_ne (by omega)]
    · rfl

def widenSlots (slots : List (Option α)) (before count : ℕ) : List (Option α) :=
  List.replicate before none ++ slots ++ List.replicate (count - before - slots.length) none

theorem length_widenSlots {before count : ℕ} (h : before + slots.length ≤ count) :
    (widenSlots slots before count).length = count := by
  simp only [widenSlots,List.length_append,List.length_replicate]
  omega

theorem windowGet_widen (slots : List (Option α)) (before count : ℕ) (min k : ℤ) :
    windowGet (min - before) (widenSlots slots before count) k = windowGet min slots k := by
  have hiff : ∀ v, windowGet (min - before) (widenSlots slots before count) k = some v ↔
      windowGet min slots k = some v := by
    intro v
    rw [windowGet_eq_some,windowGet_eq_some]
    constructor
    · rintro ⟨i,hk,hi⟩
      unfold widenSlots at hi
      rw [List.append_assoc,List.getElem?_append,List.length_replicate] at hi
      split_ifs at hi with hb
      · rw [List.getElem?_replicate,if_pos hb] at hi
        cases Option.some.inj hi
      · rw [List.getElem?_append] at hi
        split_ifs at hi with hs
        · exact ⟨i - before,by omega,hi⟩
        · rw [List.getElem?_replicate] at hi
          split_ifs at hi
          cases Option.some.inj hi
    · rintro ⟨i,hk,hi⟩
      refine ⟨before + i,by push_cast; omega,?_⟩
      have hlen : i < slots.length := (List.getElem?_eq_some_iff.mp hi).1
      unfold widenSlots
      rw [List.append_assoc,List.getElem?_append_right (by rw [List.length_replicate]; omega),
        List.length_replicate,Nat.add_sub_cancel_left,List.getElem?_append_left hlen]
      exact hi
  exact Option.ext hiff

/-- The integers and what the slots hold there. -/
def windowPairs (min : ℤ) : List (Option α) → List (ℤ × α)
  | [] => []
  | some v :: slots => (min,v) :: windowPairs (min + 1) slots
  | none :: slots => windowPairs (min + 1) slots

theorem windowGet_cons (min : ℤ) (slot : Option α) (slots : List (Option α)) (k : ℤ) :
    windowGet min (slot :: slots) k = if k = min then slot else windowGet (min + 1) slots k := by
  unfold windowGet
  by_cases hk : k = min
  · subst hk
    rw [if_pos le_rfl,if_pos rfl,Int.sub_self]
    exact Option.join_some
  · rw [if_neg hk]
    by_cases hle : min ≤ k
    · have ht : (k - min).toNat = (k - (min + 1)).toNat + 1 := by omega
      rw [if_pos hle,if_pos (by omega),ht,List.getElem?_cons_succ]
    · rw [if_neg hle,if_neg (by omega)]

theorem mem_windowPairs {v : α} :
    (k,v) ∈ windowPairs min slots ↔ windowGet min slots k = some v := by
  induction slots generalizing min with
  | nil => simp [windowPairs,windowGet]
  | cons slot slots ih =>
    rw [windowGet_cons]
    cases slot with
    | none =>
      rw [windowPairs,ih]
      split_ifs with hk
      · rw [windowGet_of_lt (by omega)]
        simp
      · exact Iff.rfl
    | some w =>
      rw [windowPairs,List.mem_cons,ih,Prod.mk.injEq]
      split_ifs with hk
      · rw [windowGet_of_lt (by omega),Option.some.injEq]
        simp only [hk,true_and,reduceCtorEq,or_false]
        exact eq_comm
      · simp only [hk,false_and,false_or]

theorem windowPairs_sorted (min : ℤ) (slots : List (Option α)) :
    ((windowPairs min slots).map Prod.fst).Pairwise (· < ·) ∧
      ∀ k ∈ (windowPairs min slots).map Prod.fst, min ≤ k := by
  induction slots generalizing min with
  | nil => exact ⟨List.Pairwise.nil,fun k hk => absurd hk List.not_mem_nil⟩
  | cons slot slots ih =>
    obtain ⟨hsorted,hge⟩ := ih (min + 1)
    cases slot with
    | none => exact ⟨hsorted,fun k hk => by have := hge k hk; omega⟩
    | some w =>
      rw [windowPairs,List.map_cons]
      refine ⟨List.pairwise_cons.mpr ⟨fun k hk => ?_,hsorted⟩,fun k hk => ?_⟩
      · have := hge k hk
        omega
      · rcases List.mem_cons.mp hk with rfl | hk
        · exact le_rfl
        · have := hge k hk
          omega

end Dodam.Foundation
