import Mathlib.Algebra.BigOperators.Group.Finset.Basic
import Mathlib.Algebra.Order.BigOperators.Group.Multiset
import Mathlib.Algebra.Order.Ring.Nat

/-! # How often values occur

A multiset is the same as its values with the numbers of their occurrences.
-/
namespace Dodam.Foundation

section ValueCounts
variable {α : Type*} [DecidableEq α] {s t : Multiset α}

/-- Each value with the number of its occurrences. -/
def valueCounts (s : Multiset α) : Multiset (α × ℕ) := s.dedup.map fun a => (a,s.count a)

theorem mem_valueCounts {entry : α × ℕ} : entry ∈ valueCounts s ↔ entry.1 ∈ s ∧ entry.2 = s.count entry.1 := by
  unfold valueCounts
  rw [Multiset.mem_map]
  constructor
  · rintro ⟨a,ha,rfl⟩
    exact ⟨Multiset.mem_dedup.mp ha,rfl⟩
  · rintro ⟨ha,hcount⟩
    exact ⟨entry.1,Multiset.mem_dedup.mpr ha,Prod.ext rfl hcount.symm⟩

theorem pos_of_mem_valueCounts {entry : α × ℕ} (h : entry ∈ valueCounts s) : 0 < entry.2 := by
  obtain ⟨hmem,hcount⟩ := mem_valueCounts.mp h
  rw [hcount]
  exact Multiset.count_pos.mpr hmem

theorem nodup_valueCounts (s : Multiset α) : (valueCounts s).Nodup := by
  apply Multiset.Nodup.map
  · intro a b h
    exact congrArg Prod.fst h
  · exact s.nodup_dedup

theorem sum_valueCounts (s : Multiset α) : ((valueCounts s).map Prod.snd).sum = s.card := by
  unfold valueCounts
  rw [Multiset.map_map]
  exact s.toFinset_sum_count_eq

theorem card_valueCounts (s : Multiset α) : (valueCounts s).card = s.dedup.card := Multiset.card_map _ _

theorem valueCounts_injective : Function.Injective (valueCounts : Multiset α → Multiset (α × ℕ)) := by
  intro s t h
  have hsub : ∀ {s t : Multiset α}, valueCounts s = valueCounts t → ∀ a ∈ s, s.count a = t.count a := by
    intro s t h a ha
    have hmem : (a,s.count a) ∈ valueCounts t := by
      rw [← h]
      exact mem_valueCounts.mpr ⟨ha,rfl⟩
    exact (mem_valueCounts.mp hmem).2
  apply Multiset.ext.mpr
  intro a
  by_cases hs : a ∈ s
  · exact hsub h a hs
  · by_cases ht : a ∈ t
    · exact (hsub h.symm a ht).symm
    · rw [Multiset.count_eq_zero.mpr hs,Multiset.count_eq_zero.mpr ht]

end ValueCounts

section Counts
variable {α β κ : Type*} [DecidableEq κ] (key : β → κ) (counted : β → Bool)

def groupCounts (rows : Multiset β) : Multiset ℕ :=
  (rows.map key).dedup.map fun k => (rows.filter fun row => key row = k ∧ counted row = true).card

local instance nonemptyDecidable (rows : Multiset β) : Decidable (rows ≠ 0) := decidable_of_iff (rows.card ≠ 0) (not_congr Multiset.card_eq_zero)

variable {left : Multiset α} {keyOf : α → κ} {made : α → Multiset β} (hkey : ∀ a, ∀ row ∈ made a, key row = keyOf a)
include hkey

theorem dedup_keys_bind : ((left.bind made).map key).dedup = ((left.filter (made · ≠ 0)).map keyOf).dedup := by
  apply Multiset.dedup_ext.mpr
  intro k
  simp only [Multiset.mem_map,Multiset.mem_bind,Multiset.mem_filter]
  constructor
  · rintro ⟨row,⟨a,ha,hrow⟩,rfl⟩
    have hne : made a ≠ 0 := fun hzero => absurd (hzero ▸ hrow) (Multiset.notMem_zero row)
    exact ⟨a,⟨ha,hne⟩,(hkey a row hrow).symm⟩
  · rintro ⟨a,⟨ha,hne⟩,rfl⟩
    obtain ⟨row,hrow⟩ := Multiset.exists_mem_of_ne_zero hne
    exact ⟨row,⟨a,ha,hrow⟩,hkey a row hrow⟩

theorem card_groupCounts_le : (groupCounts key counted (left.bind made)).card ≤ left.card := by
  unfold groupCounts
  rw [Multiset.card_map,dedup_keys_bind key hkey]
  calc ((left.filter (made · ≠ 0)).map keyOf).dedup.card
      ≤ ((left.filter (made · ≠ 0)).map keyOf).card := Multiset.card_le_card (Multiset.dedup_le _)
    _ = (left.filter (made · ≠ 0)).card := Multiset.card_map _ _
    _ ≤ left.card := Multiset.card_le_card (Multiset.filter_le _ _)

theorem card_groupCounts_eq_iff :
    (groupCounts key counted (left.bind made)).card = left.card ↔ (left.map keyOf).Nodup ∧ ∀ a ∈ left, made a ≠ 0 := by
  unfold groupCounts
  rw [Multiset.card_map,dedup_keys_bind key hkey]
  constructor
  · intro h
    have hkept : left.filter (made · ≠ 0) = left := by
      refine Multiset.eq_of_le_of_card_le (Multiset.filter_le _ _) ?_
      rw [← h]
      exact (Multiset.card_le_card (Multiset.dedup_le _)).trans (Multiset.card_map _ _).le
    rw [hkept] at h
    refine ⟨?_,Multiset.filter_eq_self.mp hkept⟩
    have hdedup : (left.map keyOf).dedup = left.map keyOf := by
      refine Multiset.eq_of_le_of_card_le (Multiset.dedup_le _) ?_
      rw [h,Multiset.card_map]
    exact Multiset.dedup_eq_self.mp hdedup
  · rintro ⟨hnodup,hmade⟩
    rw [Multiset.filter_eq_self.mpr hmade,Multiset.dedup_eq_self.mpr hnodup,Multiset.card_map]

theorem filter_bind_of_nodup (hnodup : (left.map keyOf).Nodup) {a : α} (ha : a ∈ left) :
    ((left.bind made).filter fun row => key row = keyOf a ∧ counted row = true) = (made a).filter (counted · = true) := by
  obtain ⟨rest,rfl⟩ := Multiset.exists_cons_of_mem ha
  have hother : ∀ b ∈ rest, ((made b).filter fun row => key row = keyOf a ∧ counted row = true) = 0 := by
    intro b hb
    apply Multiset.filter_eq_nil.mpr
    intro row hrow h
    rw [Multiset.map_cons,Multiset.nodup_cons] at hnodup
    apply hnodup.1
    rw [← h.1,hkey b row hrow]
    exact Multiset.mem_map_of_mem _ hb
  have hown : ((made a).filter fun row => key row = keyOf a ∧ counted row = true) = (made a).filter (counted · = true) := by
    apply Multiset.filter_congr
    intro row hrow
    exact and_iff_right (hkey a row hrow)
  rw [Multiset.cons_bind,Multiset.filter_add,hown,Multiset.filter_bind,Multiset.bind_congr hother,Multiset.bind_zero,add_zero]

theorem groupCounts_bind (hnodup : (left.map keyOf).Nodup) (hmade : ∀ a ∈ left, made a ≠ 0) :
    groupCounts key counted (left.bind made) = left.map fun a => ((made a).filter (counted · = true)).card := by
  unfold groupCounts
  rw [dedup_keys_bind key hkey,Multiset.filter_eq_self.mpr hmade,Multiset.dedup_eq_self.mpr hnodup,Multiset.map_map]
  apply Multiset.map_congr rfl
  intro a ha
  exact congrArg Multiset.card (filter_bind_of_nodup key counted hkey hnodup ha)

theorem groupCounts_eq_map_iff {counts : α → ℕ} (hle : ∀ a ∈ left, ((made a).filter (counted · = true)).card ≤ counts a) :
    groupCounts key counted (left.bind made) = left.map counts ↔
      (left.map keyOf).Nodup ∧ ∀ a ∈ left, made a ≠ 0 ∧ ((made a).filter (counted · = true)).card = counts a := by
  constructor
  · intro h
    have hcard : (groupCounts key counted (left.bind made)).card = left.card := by rw [h,Multiset.card_map]
    obtain ⟨hnodup,hmade⟩ := (card_groupCounts_eq_iff key counted hkey).mp hcard
    rw [groupCounts_bind key counted hkey hnodup hmade] at h
    refine ⟨hnodup,fun a ha => ⟨hmade a ha,(hle a ha).antisymm ?_⟩⟩
    by_contra hlt
    have hsum := congrArg Multiset.sum h
    exact absurd hsum (Multiset.sum_lt_sum hle ⟨a,ha,not_le.mp hlt⟩).ne
  · rintro ⟨hnodup,hall⟩
    rw [groupCounts_bind key counted hkey hnodup fun a ha => (hall a ha).1]
    exact Multiset.map_congr rfl fun a ha => (hall a ha).2

end Counts
end Dodam.Foundation
