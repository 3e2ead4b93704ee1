import Mathlib.Data.List.GetD
import Mathlib.Algebra.BigOperators.Group.Multiset.Basic

/-! # Groups of keyed rows

A group table is a list of groups with distinct keys and an index from keys to positions.
-/
namespace Dodam.Foundation

section Rows
variable {κ β : Type*} [DecidableEq κ]

def valuesAt (rows : Multiset (κ × β)) (k : κ) : Multiset β :=
  (rows.filter fun row => row.1 = k).map Prod.snd

@[simp] theorem valuesAt_add (r s : Multiset (κ × β)) (k : κ) :
    valuesAt (r + s) k = valuesAt r k + valuesAt s k := by
  rw [valuesAt,Multiset.filter_add,Multiset.map_add]
  rfl

def rowsOf (k : κ) (values : Multiset β) : Multiset (κ × β) := values.map fun v => (k,v)

theorem valuesAt_rowsOf_self (k : κ) (values : Multiset β) : valuesAt (rowsOf k values) k = values := by
  rw [valuesAt,rowsOf,Multiset.filter_eq_self.mpr,Multiset.map_map]
  · exact Multiset.map_id' values
  · intro row hrow
    obtain ⟨v,-,rfl⟩ := Multiset.mem_map.mp hrow
    rfl

theorem valuesAt_rowsOf_ne {k k' : κ} (h : k ≠ k') (values : Multiset β) :
    valuesAt (rowsOf k values) k' = 0 := by
  rw [valuesAt,rowsOf,Multiset.filter_eq_nil.mpr,Multiset.map_zero]
  intro row hrow
  obtain ⟨v,-,rfl⟩ := Multiset.mem_map.mp hrow
  exact h

theorem valuesAt_eq_zero {rows : Multiset (κ × β)} {k : κ} :
    valuesAt rows k = 0 ↔ ∀ row ∈ rows, row.1 ≠ k := by
  rw [valuesAt,Multiset.map_eq_zero,Multiset.filter_eq_nil]

theorem card_valuesAt_le (rows : Multiset (κ × β)) (k : κ) : (valuesAt rows k).card ≤ rows.card := by
  rw [valuesAt,Multiset.card_map]
  exact Multiset.card_le_card (Multiset.filter_le _ _)

end Rows

section Index
variable {κ : Type*}

def Indexes (scope : κ → Prop) (get : κ → Option ℕ) (keys : List κ) : Prop :=
  ∀ k, scope k → ∀ i, get k = some i ↔ keys[i]? = some k

variable {scope : κ → Prop} {get : κ → Option ℕ} {keys : List κ}

theorem Indexes.notMem (h : Indexes scope get keys) {k : κ} (hk : scope k) (hnone : get k = none) :
    k ∉ keys := by
  intro hmem
  obtain ⟨i,hi⟩ := List.getElem?_of_mem hmem
  rw [(h k hk i).mpr hi] at hnone
  cases hnone

theorem Indexes.push {get' : κ → Option ℕ} (h : Indexes scope get keys) {k : κ} (hk : scope k)
    (hnone : get k = none) (hself : get' k = some keys.length)
    (hother : ∀ k', scope k' → k' ≠ k → get' k' = get k') : Indexes scope get' (keys ++ [k]) := by
  intro k' hk' i
  by_cases heq : k' = k
  · subst heq
    have hnew : k' ∉ keys := h.notMem hk hnone
    rw [hself,Option.some.injEq,List.getElem?_append]
    split_ifs with hi
    · refine iff_of_false (by omega) fun hget => hnew (List.mem_of_getElem? hget)
    · rw [List.getElem?_singleton]
      split_ifs with hz
      · exact iff_of_true (by omega) rfl
      · exact iff_of_false (by omega) (by simp)
  · rw [hother k' hk' heq,h k' hk' i,List.getElem?_append]
    split_ifs with hi
    · exact Iff.rfl
    · rw [List.getElem?_eq_none (by omega),List.getElem?_singleton]
      refine iff_of_false (Option.some_ne_none _).symm fun hget => ?_
      split_ifs at hget
      exact heq (Option.some.inj hget).symm

end Index

section Groups
variable {κ β γ : Type*} [DecidableEq κ] (key : γ → κ) (Holds : Multiset β → γ → Prop)

structure Grouping (rows : Multiset (κ × β)) (groups : List γ) : Prop where
  nodup : (groups.map key).Nodup
  holds : ∀ g ∈ groups, Holds (valuesAt rows (key g)) g
  covers : ∀ row ∈ rows, row.1 ∈ groups.map key

variable {key Holds} {rows : Multiset (κ × β)} {groups : List γ}

theorem grouping_empty : Grouping key Holds (0 : Multiset (κ × β)) [] :=
  ⟨List.nodup_nil,fun _ h => absurd h List.not_mem_nil,fun _ h => absurd h (Multiset.notMem_zero _)⟩

theorem Grouping.valuesAt_of_notMem (h : Grouping key Holds rows groups) {k : κ}
    (hk : k ∉ groups.map key) : valuesAt rows k = 0 :=
  valuesAt_eq_zero.mpr fun row hrow heq => hk (heq ▸ h.covers row hrow)

theorem Grouping.push (h : Grouping key Holds rows groups) {g : γ} (hnew : key g ∉ groups.map key)
    (hg : Holds 0 g) : Grouping key Holds rows (groups ++ [g]) where
  nodup := by
    rw [List.map_append,List.map_singleton,List.nodup_append']
    refine ⟨h.nodup,List.nodup_singleton _,fun k hk hk' => ?_⟩
    rw [List.mem_singleton] at hk'
    exact hnew (hk' ▸ hk)
  holds g' hg' := by
    rw [List.mem_append,List.mem_singleton] at hg'
    rcases hg' with hg' | rfl
    · exact h.holds g' hg'
    · rw [h.valuesAt_of_notMem hnew]
      exact hg
  covers row hrow := by
    rw [List.map_append]
    exact List.mem_append_left _ (h.covers row hrow)

theorem Grouping.modify (h : Grouping key Holds rows groups) {i : ℕ} {g : γ} (hi : groups[i]? = some g)
    {f : γ → γ} (hkey : ∀ g, key (f g) = key g) {values : Multiset β}
    (hf : ∀ held, Holds held g → Holds (held + values) (f g)) :
    Grouping key Holds (rows + rowsOf (key g) values) (groups.modify i f) := by
  have hkeys : (groups.modify i f).map key = groups.map key := by
    refine List.ext_getElem? fun j => ?_
    rw [List.getElem?_map,List.getElem?_modify,List.getElem?_map]
    cases groups[j]? with
    | none => rfl
    | some g' => by_cases hij : i = j <;> simp [hij,hkey]
  refine ⟨hkeys ▸ h.nodup,fun g' hg' => ?_,fun row hrow => ?_⟩
  · obtain ⟨j,hj⟩ := List.getElem?_of_mem hg'
    rw [List.getElem?_modify] at hj
    obtain ⟨g₀,hg₀,hj'⟩ := Option.map_eq_some_iff.mp hj
    rw [valuesAt_add]
    by_cases hij : i = j
    · subst hij
      obtain rfl : g = g₀ := Option.some.inj (hi.symm.trans hg₀)
      rw [if_pos rfl] at hj'
      rw [← hj',hkey,valuesAt_rowsOf_self]
      exact hf _ (h.holds _ (List.mem_of_getElem? hi))
    · rw [if_neg hij] at hj'
      obtain rfl : g₀ = g' := hj'
      have hne : key g ≠ key g₀ := by
        intro heq
        refine hij ((List.getElem?_inj ?_ h.nodup).mp ?_)
        · rw [List.length_map]
          exact (List.getElem?_eq_some_iff.mp hi).1
        · rw [List.getElem?_map,List.getElem?_map,hi,hg₀,Option.map_some,Option.map_some,heq]
      rw [valuesAt_rowsOf_ne hne,add_zero]
      exact h.holds _ (List.mem_of_getElem? hg₀)
  · rw [hkeys]
    rw [Multiset.mem_add] at hrow
    rcases hrow with hrow | hrow
    · exact h.covers row hrow
    · obtain ⟨v,-,rfl⟩ := Multiset.mem_map.mp hrow
      exact List.mem_map_of_mem (List.mem_of_getElem? hi)

end Groups
end Dodam.Foundation
