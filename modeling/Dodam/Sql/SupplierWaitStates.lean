import Dodam.Sql.SupplierWait

/-! # What the state of an order remembers

A state tells of the rows of its order which supplier is the only one, and which is the only
late one with how many rows.
-/
namespace Dodam.Sql
open Foundation SupplierWaitOrderState

/-- One of the keys is remembered, and whether there are others. -/
structure Remembers (keys : Multiset ℤ) (has : Bool) (first : ℤ) (multiple : Bool) : Prop where
  has_iff : has = true ↔ ∃ key, key ∈ keys
  mem : has = true → first ∈ keys
  multiple_iff : multiple = true ↔ ∃ key ∈ keys, key ≠ first

namespace Remembers
variable {a b : Multiset ℤ} {f f' : ℤ} {m m' : Bool}

theorem empty (f : ℤ) : Remembers 0 false f false where
  has_iff := by simp
  mem h := by cases h
  multiple_iff := by simp

theorem eq_zero (h : Remembers a false f m) : a = 0 ∧ m = false := by
  have hnone : ∀ key, key ∉ a := fun key hkey => Bool.false_ne_true (h.has_iff.mpr ⟨key,hkey⟩)
  refine ⟨Multiset.eq_zero_of_forall_notMem hnone,?_⟩
  apply Bool.eq_false_iff.mpr
  intro hm
  obtain ⟨key,hkey,-⟩ := h.multiple_iff.mp hm
  exact hnone key hkey

theorem merge (ha : Remembers a true f m) (hb : Remembers b true f' m') :
    Remembers (a + b) true f (m || decide (f' ≠ f) || m') where
  has_iff := by
    have hmem := Multiset.mem_add.mpr (Or.inl (ha.mem rfl) : f ∈ a ∨ f ∈ b)
    exact iff_of_true rfl ⟨f,hmem⟩
  mem _ := Multiset.mem_add.mpr (Or.inl (ha.mem rfl))
  multiple_iff := by
    rw [Bool.or_eq_true,Bool.or_eq_true,decide_eq_true_eq,ha.multiple_iff,hb.multiple_iff]
    constructor
    · rintro ((⟨key,hkey,hne⟩ | hne) | ⟨key,hkey,hne⟩)
      · exact ⟨key,Multiset.mem_add.mpr (Or.inl hkey),hne⟩
      · exact ⟨f',Multiset.mem_add.mpr (Or.inr (hb.mem rfl)),hne⟩
      · by_cases heq : f' = f
        · exact ⟨key,Multiset.mem_add.mpr (Or.inr hkey),heq ▸ hne⟩
        · exact ⟨f',Multiset.mem_add.mpr (Or.inr (hb.mem rfl)),heq⟩
    · rintro ⟨key,hkey,hne⟩
      by_cases heq : f' = f
      · rcases Multiset.mem_add.mp hkey with hkey | hkey
        · exact Or.inl (Or.inl ⟨key,hkey,hne⟩)
        · exact Or.inr ⟨key,hkey,heq.symm ▸ hne⟩
      · exact Or.inl (Or.inr heq)

theorem eq_first (h : Remembers a true f false) {key : ℤ} (hkey : key ∈ a) : key = f := by
  by_contra hne
  exact Bool.false_ne_true (h.multiple_iff.mpr ⟨key,hkey,hne⟩)

end Remembers

section Rows
variable (suppkey : ℤ) (rows : Multiset SupplierRow)

def lateSuppliers : Multiset ℤ := (rows.filter fun row => row.late = true).map SupplierRow.suppkey

def lateRows : ℕ := (lateSuppliers rows).count suppkey

def Qualifies : Prop := (∃ row ∈ rows, row.suppkey ≠ suppkey) ∧ ∀ row ∈ rows, row.late = true → row.suppkey = suppkey

instance : Decidable (Qualifies suppkey rows) :=
  @instDecidableAnd _ _ Multiset.decidableExistsMultiset Multiset.decidableForallMultiset

/-- What an order adds to the count of a supplier. -/
def owed : ℕ := if Qualifies suppkey rows then lateRows suppkey rows else 0

def counted : ℕ := if Qualifies suppkey rows then lateRows suppkey rows % 2 ^ 32 else 0

end Rows

structure Describes (rows : Multiset SupplierRow) (state : SupplierWaitOrderState) : Prop where
  suppliers : Remembers (rows.map SupplierRow.suppkey) state.hasSupplier state.firstSupplier state.hasMultipleSuppliers
  late : Remembers (lateSuppliers rows) state.hasLateSupplier state.lateSupplier state.hasMultipleLateSuppliers
  count : state.hasMultipleLateSuppliers = false → state.hasLateSupplier = true →
    state.lateRowCount = UInt32.ofNat (lateRows state.lateSupplier rows)

section States

theorem lateSuppliers_add (a b : Multiset SupplierRow) : lateSuppliers (a + b) = lateSuppliers a + lateSuppliers b := by
  unfold lateSuppliers
  rw [Multiset.filter_add,Multiset.map_add]

theorem lateRows_add (suppkey : ℤ) (a b : Multiset SupplierRow) : lateRows suppkey (a + b) = lateRows suppkey a + lateRows suppkey b := by
  unfold lateRows
  rw [lateSuppliers_add,Multiset.count_add]

theorem describes_empty : Describes 0 {} := ⟨.empty 0,.empty 0,fun _ h => by cases h⟩

variable {s t : SupplierWaitOrderState}

theorem mergeSuppliers_describes {a b : Multiset SupplierRow} (hs : Describes a s) (ht : Describes b t) :
    Remembers ((a + b).map SupplierRow.suppkey) (s.mergeSuppliers t).hasSupplier (s.mergeSuppliers t).firstSupplier
      (s.mergeSuppliers t).hasMultipleSuppliers := by
  have hfirst := hs.suppliers
  have hsecond := ht.suppliers
  rw [Multiset.map_add]
  unfold mergeSuppliers addSupplier
  cases hother : t.hasSupplier with
  | false =>
    rw [hother] at hsecond
    rw [hsecond.eq_zero.1,add_zero]
    exact hfirst
  | true =>
    rw [hother] at hsecond
    cases hown : s.hasSupplier with
    | false =>
      rw [hown] at hfirst
      rw [hfirst.eq_zero.1,zero_add]
      cases hmultiple : t.hasMultipleSuppliers with
      | false =>
        rw [hmultiple] at hsecond
        simp only [Bool.false_eq_true,if_false,Bool.not_false,if_true,hfirst.eq_zero.2]
        exact hsecond
      | true =>
        rw [hmultiple] at hsecond
        exact hsecond
    | true =>
      rw [hown] at hfirst
      have hmerged := hfirst.merge hsecond
      cases hmultiple : t.hasMultipleSuppliers with
      | false =>
        rw [hmultiple,Bool.or_false] at hmerged
        by_cases heq : t.firstSupplier = s.firstSupplier
        · have hne : ¬t.firstSupplier ≠ s.firstSupplier := not_not.mpr heq
          rw [decide_eq_false hne,Bool.or_false] at hmerged
          simp only [if_true,Bool.not_true,Bool.false_eq_true,if_false,if_neg hne,hown]
          exact hmerged
        · rw [decide_eq_true heq,Bool.or_true] at hmerged
          simp only [if_true,Bool.not_true,Bool.false_eq_true,if_false,if_pos heq]
          exact hmerged
      | true =>
        rw [hmultiple,Bool.or_true] at hmerged
        simp only [if_true,Bool.not_true,Bool.false_eq_true,if_false]
        split_ifs
        · exact hmerged
        · simp only [hown]
          exact hmerged

theorem mergeLateSuppliers_suppliers (s t : SupplierWaitOrderState) :
    (s.mergeLateSuppliers t).hasSupplier = s.hasSupplier ∧ (s.mergeLateSuppliers t).firstSupplier = s.firstSupplier ∧
      (s.mergeLateSuppliers t).hasMultipleSuppliers = s.hasMultipleSuppliers := by
  unfold mergeLateSuppliers
  split_ifs <;> exact ⟨rfl,rfl,rfl⟩

theorem mergeSuppliers_late (s t : SupplierWaitOrderState) :
    (s.mergeSuppliers t).hasLateSupplier = s.hasLateSupplier ∧ (s.mergeSuppliers t).lateSupplier = s.lateSupplier ∧
      (s.mergeSuppliers t).hasMultipleLateSuppliers = s.hasMultipleLateSuppliers ∧ (s.mergeSuppliers t).lateRowCount = s.lateRowCount := by
  unfold mergeSuppliers addSupplier
  split_ifs <;> exact ⟨rfl,rfl,rfl,rfl⟩

/-- The late suppliers after a merge, of which the first of two is kept. -/
theorem mergeLateSuppliers_describes {a b : Multiset SupplierRow}
    (hs : Remembers (lateSuppliers a) s.hasLateSupplier s.lateSupplier s.hasMultipleLateSuppliers)
    (hcount : s.hasMultipleLateSuppliers = false → s.hasLateSupplier = true → s.lateRowCount = UInt32.ofNat (lateRows s.lateSupplier a))
    (ht : Describes b t) :
    Remembers (lateSuppliers (a + b)) (s.mergeLateSuppliers t).hasLateSupplier (s.mergeLateSuppliers t).lateSupplier
        (s.mergeLateSuppliers t).hasMultipleLateSuppliers ∧
      ((s.mergeLateSuppliers t).hasMultipleLateSuppliers = false → (s.mergeLateSuppliers t).hasLateSupplier = true →
        (s.mergeLateSuppliers t).lateRowCount = UInt32.ofNat (lateRows (s.mergeLateSuppliers t).lateSupplier (a + b))) := by
  have hother := ht.late
  have hcount' := ht.count
  unfold mergeLateSuppliers lateRows at *
  rw [lateSuppliers_add]
  cases hlate : t.hasLateSupplier with
  | false =>
    rw [hlate] at hother
    rw [hother.eq_zero.1,add_zero]
    exact ⟨hs,hcount⟩
  | true =>
    rw [hlate] at hother hcount'
    cases hown : s.hasLateSupplier with
    | false =>
      rw [hown] at hs
      rw [hs.eq_zero.1,zero_add]
      simp only [Bool.not_true,Bool.false_eq_true,if_false,Bool.not_false,if_true,hs.eq_zero.2,Bool.false_or]
      exact ⟨hother,fun hsingle _ => hcount' hsingle rfl⟩
    | true =>
      rw [hown] at hs hcount
      have hmerged := hs.merge hother
      by_cases heq : s.lateSupplier = t.lateSupplier
      · have hne : ¬t.lateSupplier ≠ s.lateSupplier := not_not.mpr heq.symm
        rw [decide_eq_false hne,Bool.or_false] at hmerged
        simp only [if_pos heq]
        refine ⟨hmerged,?_⟩
        intro hsingle _
        obtain ⟨hfirst,hsecond⟩ := Bool.or_eq_false_iff.mp hsingle
        rw [hcount hfirst rfl,hcount' hsecond rfl,Multiset.count_add,heq]
        exact (UInt32.ofNat_add ..).symm
      · have hne : t.lateSupplier ≠ s.lateSupplier := Ne.symm heq
        rw [decide_eq_true hne,Bool.or_true,Bool.true_or] at hmerged
        simp only [if_neg heq]
        exact ⟨hmerged,fun h => by cases h⟩

theorem Describes.merge {a b : Multiset SupplierRow} (hs : Describes a s) (ht : Describes b t) :
    Describes (a + b) (s.merge t) := by
  obtain ⟨hhas,hlate,hmultiple,hcount⟩ := mergeSuppliers_late s t
  have hown : Remembers (lateSuppliers a) (s.mergeSuppliers t).hasLateSupplier (s.mergeSuppliers t).lateSupplier
      (s.mergeSuppliers t).hasMultipleLateSuppliers := by
    rw [hhas,hlate,hmultiple]
    exact hs.late
  have hmerged := mergeLateSuppliers_describes hown (by rw [hhas,hlate,hmultiple,hcount]; exact hs.count) ht
  obtain ⟨hsuppliers,hfirst,hothers⟩ := mergeLateSuppliers_suppliers (s.mergeSuppliers t) t
  constructor
  · unfold SupplierWaitOrderState.merge
    rw [hsuppliers,hfirst,hothers]
    exact mergeSuppliers_describes hs ht
  · exact hmerged.1
  · exact hmerged.2

theorem addLateSupplier_eq (state : SupplierWaitOrderState) (suppkey : ℤ) :
    state.addLateSupplier suppkey = state.mergeLateSuppliers ⟨suppkey,suppkey,1,true,false,true,false⟩ := by
  unfold addLateSupplier mergeLateSuppliers
  simp only [Bool.not_true,Bool.false_eq_true,if_false,Bool.or_false]
  by_cases heq : suppkey = state.lateSupplier
  · rw [if_pos heq,if_pos heq.symm]
  · rw [if_neg heq,if_neg (Ne.symm heq)]

theorem addRow_eq_merge (state : SupplierWaitOrderState) (row : SupplierRow) :
    state.addRow row = state.merge (({} : SupplierWaitOrderState).addRow row) := by
  obtain ⟨suppkey,late⟩ := row
  cases late with
  | false => rfl
  | true => exact addLateSupplier_eq (state.addSupplier suppkey) suppkey

theorem describes_row (row : SupplierRow) : Describes {row} (({} : SupplierWaitOrderState).addRow row) := by
  obtain ⟨suppkey,late⟩ := row
  have hone : Remembers {suppkey} true suppkey false := ⟨by simp,fun _ => Multiset.mem_singleton_self _,by simp⟩
  cases late with
  | false =>
    refine ⟨hone,?_,fun _ h => by cases h⟩
    exact .empty 0
  | true =>
    refine ⟨hone,hone,?_⟩
    intro _ _
    have hrows : lateRows suppkey {⟨suppkey,true⟩} = 1 := Multiset.count_singleton_self _
    exact hrows ▸ rfl

theorem describes_ofRows (rows : List SupplierRow) : Describes (Multiset.ofList rows) (.ofRows rows) := by
  induction rows using List.reverseRecOn with
  | nil => exact describes_empty
  | append_singleton rows row ih =>
    unfold ofRows at *
    rw [List.foldl_append,List.foldl_cons,List.foldl_nil,addRow_eq_merge,← Multiset.coe_add]
    exact ih.merge (describes_row row)

/-- The same flags, and the same supplier and count where there is only one. -/
structure SameState (s t : SupplierWaitOrderState) : Prop where
  hasSupplier : s.hasSupplier = t.hasSupplier
  hasMultipleSuppliers : s.hasMultipleSuppliers = t.hasMultipleSuppliers
  hasLateSupplier : s.hasLateSupplier = t.hasLateSupplier
  hasMultipleLateSuppliers : s.hasMultipleLateSuppliers = t.hasMultipleLateSuppliers
  firstSupplier : s.hasSupplier = true → s.hasMultipleSuppliers = false → s.firstSupplier = t.firstSupplier
  lateSupplier : s.hasLateSupplier = true → s.hasMultipleLateSuppliers = false →
    s.lateSupplier = t.lateSupplier ∧ s.lateRowCount = t.lateRowCount

theorem Remembers.unique {keys : Multiset ℤ} {has has' : Bool} {first first' : ℤ} {multiple multiple' : Bool}
    (h : Remembers keys has first multiple) (h' : Remembers keys has' first' multiple') :
    has = has' ∧ multiple = multiple' ∧ (has = true → multiple = false → first = first') := by
  have hhas : has = has' := Bool.eq_iff_iff.mpr (h.has_iff.trans h'.has_iff.symm)
  subst hhas
  cases has with
  | false =>
    rw [h.eq_zero.2,h'.eq_zero.2]
    exact ⟨rfl,rfl,fun h => by cases h⟩
  | true =>
    have hother : ∀ {first first' multiple multiple'}, Remembers keys true first multiple → Remembers keys true first' multiple' →
        multiple = true → multiple' = true := by
      intro first first' multiple multiple' h h' hmultiple
      by_contra hsingle
      rw [Bool.not_eq_true] at hsingle
      subst hsingle
      obtain ⟨key,hkey,hne⟩ := h.multiple_iff.mp hmultiple
      exact hne ((h'.eq_first hkey).trans (h'.eq_first (h.mem rfl)).symm)
    refine ⟨rfl,Bool.eq_iff_iff.mpr ⟨hother h h',hother h' h⟩,?_⟩
    intro _ hsingle
    subst hsingle
    exact (h.eq_first (h'.mem rfl)).symm

theorem Describes.sameState {rows : Multiset SupplierRow} (hs : Describes rows s) (ht : Describes rows t) :
    SameState s t := by
  obtain ⟨hhas,hmultiple,hfirst⟩ := hs.suppliers.unique ht.suppliers
  obtain ⟨hhasLate,hmultipleLate,hlate⟩ := hs.late.unique ht.late
  refine ⟨hhas,hmultiple,hhasLate,hmultipleLate,hfirst,?_⟩
  intro hlater hsingle
  have hsame := hlate hlater hsingle
  rw [hs.count hsingle hlater,ht.count (hmultipleLate ▸ hsingle) (hhasLate ▸ hlater),hsame]
  exact ⟨rfl,rfl⟩

theorem merge_ofRows (a b : List SupplierRow) :
    SameState ((ofRows a).merge (.ofRows b)) (.ofRows (a ++ b)) :=
  ((describes_ofRows a).merge (describes_ofRows b)).sameState (Multiset.coe_add a b ▸ describes_ofRows (a ++ b))

end States
end Dodam.Sql
