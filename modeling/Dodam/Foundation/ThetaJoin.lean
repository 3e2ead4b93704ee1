import Dodam.Foundation.Join
import Mathlib.Data.Multiset.OrderedMonoid
import Mathlib.Tactic.Abel

/-! # Joins of two multisets on a condition

The joins of SQL on any condition, of which those on nullable keys are a case.
-/
namespace Dodam.Foundation

/-- A row of the left input without a partner has a say in the result. -/
def JoinKind.LeftAlone : JoinKind → Prop
  | .left | .full | .semi => True
  | .inner | .right => False

def JoinKind.RightAlone : JoinKind → Prop
  | .right | .full => True
  | .inner | .left | .semi => False

instance : DecidablePred JoinKind.LeftAlone := fun kind => by
  cases kind
  all_goals
    unfold JoinKind.LeftAlone
    infer_instance

instance : DecidablePred JoinKind.RightAlone := fun kind => by
  cases kind
  all_goals
    unfold JoinKind.RightAlone
    infer_instance

section ThetaJoin
variable {L R : Type*} (on : L → R → Prop) [∀ a b, Decidable (on a b)]

/-- The row has a partner among `r`. -/
def Partnered (r : Multiset R) (a : L) : Prop := ∃ b ∈ r, on a b

instance (r : Multiset R) (a : L) : Decidable (Partnered on r a) := Multiset.decidableExistsMultiset

def thetaPairs (l : Multiset L) (r : Multiset R) : Multiset (Option L × Option R) :=
  l.bind fun a => (r.filter (on a)).map fun b => (some a,some b)

def thetaLeftOnly (l : Multiset L) (r : Multiset R) : Multiset (Option L × Option R) :=
  (l.filter fun a => ¬ Partnered on r a).map fun a => (some a,none)

def thetaRightOnly (l : Multiset L) (r : Multiset R) : Multiset (Option L × Option R) :=
  (r.filter fun b => ¬ Partnered (fun b a => on a b) l b).map fun b => (none,some b)

def thetaSemi (l : Multiset L) (r : Multiset R) : Multiset (Option L × Option R) :=
  (l.filter (Partnered on r)).map fun a => (some a,none)

def thetaJoin (kind : JoinKind) (l : Multiset L) (r : Multiset R) : Multiset (Option L × Option R) :=
  match kind with
  | .inner => thetaPairs on l r
  | .left => thetaPairs on l r + thetaLeftOnly on l r
  | .right => thetaPairs on l r + thetaRightOnly on l r
  | .full => thetaPairs on l r + thetaLeftOnly on l r + thetaRightOnly on l r
  | .semi => thetaSemi on l r

/-- What the left join makes of one left row: a pair for each partner, or the row alone. -/
def leftJoined (r : Multiset R) (a : L) : Multiset (Option L × Option R) :=
  if Partnered on r a then (r.filter (on a)).map fun b => (some a,some b) else {(some a,none)}

theorem leftJoined_ne_zero (r : Multiset R) (a : L) : leftJoined on r a ≠ 0 := by
  unfold leftJoined
  split_ifs with h
  · obtain ⟨b,hb,hon⟩ := h
    intro hzero
    have hmem : (some a,some b) ∈ (r.filter (on a)).map fun b => (some a,some b) :=
      Multiset.mem_map_of_mem _ (Multiset.mem_filter.mpr ⟨hb,hon⟩)
    rw [hzero] at hmem
    exact Multiset.notMem_zero _ hmem
  · exact Multiset.singleton_ne_zero _

theorem fst_of_mem_leftJoined {r : Multiset R} {a : L} {pair : Option L × Option R} (h : pair ∈ leftJoined on r a) :
    pair.1 = some a := by
  unfold leftJoined at h
  split_ifs at h
  · obtain ⟨b,-,rfl⟩ := Multiset.mem_map.mp h
    rfl
  · rw [Multiset.mem_singleton.mp h]

theorem thetaJoin_left_eq_bind (l : Multiset L) (r : Multiset R) : thetaJoin on .left l r = l.bind (leftJoined on r) := by
  unfold thetaJoin thetaPairs thetaLeftOnly
  induction l using Multiset.induction_on with
  | empty => rfl
  | cons a l ih =>
    rw [Multiset.cons_bind,Multiset.cons_bind,← ih]
    by_cases h : Partnered on r a
    · have hrow : leftJoined on r a = (r.filter (on a)).map fun b => (some a,some b) := if_pos h
      rw [hrow,Multiset.filter_cons_of_neg (p := fun a => ¬ Partnered on r a) _ (not_not.mpr h),add_assoc]
    · have hrow : leftJoined on r a = {(some a,none)} := if_neg h
      have hnone : r.filter (on a) = 0 := Multiset.filter_eq_nil.mpr fun b hb hon => h ⟨b,hb,hon⟩
      rw [hrow,hnone,Multiset.filter_cons_of_pos (p := fun a => ¬ Partnered on r a) _ h,Multiset.map_cons,Multiset.map_zero,zero_add,Multiset.add_cons,
        Multiset.singleton_add]

section Conditions
variable {on} {on' : L → R → Prop} [∀ a b, Decidable (on' a b)] {l : Multiset L} {r : Multiset R} {kind : JoinKind}

omit [∀ a b, Decidable (on a b)] [∀ a b, Decidable (on' a b)] in
theorem partnered_congr {a : L} (h : ∀ b ∈ r, on a b ↔ on' a b) : Partnered on r a ↔ Partnered on' r a :=
  exists_congr fun b => and_congr_right (h b)

theorem thetaJoin_congr (h : ∀ a ∈ l, ∀ b ∈ r, on a b ↔ on' a b) : thetaJoin on kind l r = thetaJoin on' kind l r := by
  have hpairs : thetaPairs on l r = thetaPairs on' l r := by
    refine Multiset.bind_congr fun a ha => ?_
    exact congrArg _ (Multiset.filter_congr fun b hb => h a ha b hb)
  have hleft : thetaLeftOnly on l r = thetaLeftOnly on' l r :=
    congrArg _ (Multiset.filter_congr fun a ha => not_congr (partnered_congr (h a ha)))
  have hright : thetaRightOnly on l r = thetaRightOnly on' l r :=
    congrArg _ (Multiset.filter_congr fun b hb => not_congr (partnered_congr fun a ha => h a ha b hb))
  have hsemi : thetaSemi on l r = thetaSemi on' l r :=
    congrArg _ (Multiset.filter_congr fun a ha => partnered_congr (h a ha))
  cases kind with
  | inner => exact hpairs
  | left => exact congrArg₂ (· + ·) hpairs hleft
  | right => exact congrArg₂ (· + ·) hpairs hright
  | full => exact congrArg₂ (· + ·) (congrArg₂ (· + ·) hpairs hleft) hright
  | semi => exact hsemi

theorem mem_thetaPairs {a : L} {b : R} : (some a,some b) ∈ thetaPairs on l r ↔ a ∈ l ∧ b ∈ r ∧ on a b := by
  unfold thetaPairs
  simp [Multiset.mem_bind,Multiset.mem_filter]

theorem mem_thetaJoin (hkind : kind ≠ .semi) {a : L} {b : R} :
    (some a,some b) ∈ thetaJoin on kind l r ↔ a ∈ l ∧ b ∈ r ∧ on a b := by
  have hleft : (some a,some b) ∉ thetaLeftOnly on l r := by simp [thetaLeftOnly]
  have hright : (some a,some b) ∉ thetaRightOnly on l r := by simp [thetaRightOnly]
  rw [← mem_thetaPairs]
  cases kind with
  | inner => exact Iff.rfl
  | left => simp [thetaJoin,hleft]
  | right => simp [thetaJoin,hright]
  | full => simp [thetaJoin,hleft,hright]
  | semi => exact absurd rfl hkind

/-- What two conditions have to agree on for a join: the pairs of rows, or in a semi-join whether a row has a partner. -/
def JoinsAlike (kind : JoinKind) (on on' : L → R → Prop) (l : Multiset L) (r : Multiset R) : Prop :=
  if kind = .semi then ∀ a ∈ l, Partnered on r a ↔ Partnered on' r a else ∀ a ∈ l, ∀ b ∈ r, on a b ↔ on' a b

theorem thetaJoin_eq_iff : thetaJoin on kind l r = thetaJoin on' kind l r ↔ JoinsAlike kind on on' l r := by
  unfold JoinsAlike
  split_ifs with hkind
  · subst hkind
    constructor
    · intro h a ha
      have hmem : ∀ on : L → R → Prop, ∀ [∀ a b, Decidable (on a b)],
          ((some a,none) ∈ thetaJoin on .semi l r ↔ Partnered on r a) := by
        intro on _
        simp [thetaJoin,thetaSemi,ha]
      rw [← hmem on,← hmem on',h]
    · intro h
      exact congrArg _ (Multiset.filter_congr h)
  · constructor
    · intro h a ha b hb
      have hmem : (some a,some b) ∈ thetaJoin on kind l r ↔ (some a,some b) ∈ thetaJoin on' kind l r := by rw [h]
      rw [mem_thetaJoin hkind,mem_thetaJoin hkind] at hmem
      simpa [ha,hb] using hmem
    · exact thetaJoin_congr

theorem thetaJoin_filter_right (p : R → Prop) [DecidablePred p] (hkind : ¬ kind.RightAlone) :
    thetaJoin on kind l (r.filter p) = thetaJoin (fun a b => on a b ∧ p b) kind l r := by
  have hpartnered : ∀ a, Partnered on (r.filter p) a ↔ Partnered (fun a b => on a b ∧ p b) r a := by
    intro a
    unfold Partnered
    simp only [Multiset.mem_filter,and_assoc]
    exact exists_congr fun b => and_congr_right fun _ => and_comm
  have hpairs : thetaPairs on l (r.filter p) = thetaPairs (fun a b => on a b ∧ p b) l r := by
    refine Multiset.bind_congr fun a _ => ?_
    rw [Multiset.filter_filter]
  have hleft : thetaLeftOnly on l (r.filter p) = thetaLeftOnly (fun a b => on a b ∧ p b) l r :=
    congrArg _ (Multiset.filter_congr fun a _ => not_congr (hpartnered a))
  have hsemi : thetaSemi on l (r.filter p) = thetaSemi (fun a b => on a b ∧ p b) l r :=
    congrArg _ (Multiset.filter_congr fun a _ => hpartnered a)
  cases kind with
  | inner => exact hpairs
  | left => exact congrArg₂ (· + ·) hpairs hleft
  | semi => exact hsemi
  | right | full => exact absurd trivial hkind

end Conditions

section Map
variable {on} {L' R' : Type*} {on' : L' → R' → Prop} [∀ a b, Decidable (on' a b)] {f : L' → L} {g : R' → R}
  (h : ∀ a b, on (f a) (g b) ↔ on' a b) (l : Multiset L') (r : Multiset R')
include h

omit [∀ a b, Decidable (on a b)] [∀ a b, Decidable (on' a b)] in
theorem partnered_map {a : L'} : Partnered on (r.map g) (f a) ↔ Partnered on' r a := by
  constructor
  · rintro ⟨b,hb,hon⟩
    obtain ⟨b',hb',rfl⟩ := Multiset.mem_map.mp hb
    exact ⟨b',hb',(h a b').mp hon⟩
  · rintro ⟨b,hb,hon⟩
    exact ⟨g b,Multiset.mem_map_of_mem g hb,(h a b).mpr hon⟩

variable (f g) in
/-- Joining rows that a function makes is making rows of joined ones. -/
theorem thetaJoin_map (kind : JoinKind) :
    thetaJoin on kind (l.map f) (r.map g) = (thetaJoin on' kind l r).map (Prod.map (Option.map f) (Option.map g)) := by
  have hpairs : thetaPairs on (l.map f) (r.map g) = (thetaPairs on' l r).map (Prod.map (Option.map f) (Option.map g)) := by
    unfold thetaPairs
    rw [Multiset.bind_map,Multiset.map_bind]
    refine Multiset.bind_congr fun a _ => ?_
    rw [Multiset.filter_map,Multiset.map_map,Multiset.map_map]
    exact congrArg _ (Multiset.filter_congr fun b _ => h a b)
  have hleft : thetaLeftOnly on (l.map f) (r.map g) =
      (thetaLeftOnly on' l r).map (Prod.map (Option.map f) (Option.map g)) := by
    unfold thetaLeftOnly
    rw [Multiset.filter_map,Multiset.map_map,Multiset.map_map]
    refine congrArg _ (Multiset.filter_congr fun a _ => ?_)
    exact not_congr (partnered_map h r)
  have hright : thetaRightOnly on (l.map f) (r.map g) =
      (thetaRightOnly on' l r).map (Prod.map (Option.map f) (Option.map g)) := by
    unfold thetaRightOnly
    rw [Multiset.filter_map,Multiset.map_map,Multiset.map_map]
    refine congrArg _ (Multiset.filter_congr fun b _ => ?_)
    exact not_congr (partnered_map (fun b a => h a b) l)
  have hsemi : thetaSemi on (l.map f) (r.map g) = (thetaSemi on' l r).map (Prod.map (Option.map f) (Option.map g)) := by
    unfold thetaSemi
    rw [Multiset.filter_map,Multiset.map_map,Multiset.map_map]
    exact congrArg _ (Multiset.filter_congr fun a _ => partnered_map h r)
  cases kind with
  | inner => exact hpairs
  | left => exact (congrArg₂ (· + ·) hpairs hleft).trans (Multiset.map_add _ _ _).symm
  | right => exact (congrArg₂ (· + ·) hpairs hright).trans (Multiset.map_add _ _ _).symm
  | full =>
    unfold thetaJoin
    dsimp only
    rw [hpairs,hleft,hright,Multiset.map_add,Multiset.map_add]
  | semi => exact hsemi

end Map

section Keys
variable {K : Type*} [DecidableEq K] (kl : L → Option K) (kr : R → Option K)

omit [DecidableEq K] in
theorem not_partnered_iff (r : Multiset R) (a : L) :
    ¬ Partnered (fun a b => Joins (kl a) (kr b)) r a ↔ Unmatched kl kr r a := by
  unfold Partnered Unmatched
  push Not
  exact Iff.rfl

theorem nestedLoopJoin_eq_thetaJoin (kind : JoinKind) (l : Multiset L) (r : Multiset R) :
    nestedLoopJoin kl kr kind l r = thetaJoin (fun a b => Joins (kl a) (kr b)) kind l r := by
  have hpairs : innerPairs kl kr l r = thetaPairs (fun a b => Joins (kl a) (kr b)) l r := rfl
  have hleft : leftOnly kl kr l r = thetaLeftOnly (fun a b => Joins (kl a) (kr b)) l r := by
    refine congrArg _ (Multiset.filter_congr fun a _ => ?_)
    exact (not_partnered_iff kl kr r a).symm
  have hright : rightOnly kl kr l r = thetaRightOnly (fun a b => Joins (kl a) (kr b)) l r := by
    refine congrArg _ (Multiset.filter_congr fun b _ => ?_)
    rw [← not_partnered_iff kr kl l b]
    simp only [joins_comm]
  have hsemi : semiRows kl kr l r = thetaSemi (fun a b => Joins (kl a) (kr b)) l r := by
    refine congrArg _ (Multiset.filter_congr fun a _ => ?_)
    rw [← not_partnered_iff kl kr r a,not_not]
  cases kind with
  | inner => exact hpairs
  | left => exact congrArg₂ (· + ·) hpairs hleft
  | right => exact congrArg₂ (· + ·) hpairs hright
  | full => exact congrArg₂ (· + ·) (congrArg₂ (· + ·) hpairs hleft) hright
  | semi => exact hsemi

end Keys

section Reduced
variable {keeps : Option L × Option R → Prop} [DecidablePred keeps] {pl : L → Prop} [DecidablePred pl]
  {pr : R → Prop} [DecidablePred pr] (l : Multiset L) (r : Multiset R)

/-- The rows that have a partner, but none that passes. -/
def losesPartners (pr : R → Prop) [DecidablePred pr] : Multiset L :=
  l.filter fun a => Partnered on r a ∧ ¬ Partnered on (r.filter pr) a

variable {on}

omit [∀ a b, Decidable (on a b)] in
theorem Partnered.of_filter {r : Multiset R} {a : L} (h : Partnered on (r.filter pr) a) : Partnered on r a := by
  obtain ⟨b,hb,hon⟩ := h
  exact ⟨b,(Multiset.mem_filter.mp hb).1,hon⟩

theorem filter_thetaPairs_reduced (hl : ∀ a b, keeps (some a,some b) → pl a)
    (hr : ∀ a b, keeps (some a,some b) → pr b) :
    (thetaPairs on (l.filter pl) (r.filter pr)).filter keeps = (thetaPairs on l r).filter keeps := by
  have hrow : ∀ a, ((((r.filter pr).filter (on a)).map fun b => ((some a : Option L),some b)).filter keeps) =
      ((r.filter (on a)).map fun b => (some a,some b)).filter keeps := by
    intro a
    simp only [Multiset.filter_map,Multiset.filter_filter]
    refine congrArg _ (Multiset.filter_congr fun b _ => ?_)
    exact ⟨fun h => ⟨h.1,h.2.1⟩,fun h => ⟨h.1,h.2,hr a b h.1⟩⟩
  unfold thetaPairs
  induction l using Multiset.induction_on with
  | empty => rfl
  | cons a l ih =>
    rw [Multiset.cons_bind,Multiset.filter_add,← ih,← hrow a]
    by_cases ha : pl a
    · rw [Multiset.filter_cons_of_pos l ha,Multiset.cons_bind,Multiset.filter_add]
    · rw [Multiset.filter_cons_of_neg l ha]
      have hnone : ((((r.filter pr).filter (on a)).map fun b => ((some a : Option L),some b)).filter keeps) = 0 := by
        refine Multiset.filter_eq_nil.mpr fun row hrow => ?_
        obtain ⟨b,-,rfl⟩ := Multiset.mem_map.mp hrow
        exact fun hkeeps => ha (hl a b hkeeps)
      rw [hnone,zero_add]

theorem filter_alone_reduced {keep : L → Prop} [DecidablePred keep] (hl : ∀ a, keep a → pl a) :
    (((l.filter pl).filter fun a => ¬ Partnered on (r.filter pr) a).filter keep) =
      ((l.filter fun a => ¬ Partnered on r a).filter keep) + (losesPartners on l r pr).filter keep := by
  have hsplit := Multiset.filter_add_not (Partnered on r) (l.filter fun a => keep a ∧ ¬ Partnered on (r.filter pr) a)
  have hreduced : (((l.filter pl).filter fun a => ¬ Partnered on (r.filter pr) a).filter keep) =
      l.filter fun a => keep a ∧ ¬ Partnered on (r.filter pr) a := by
    rw [Multiset.filter_filter,Multiset.filter_filter]
    refine Multiset.filter_congr fun a _ => ?_
    exact ⟨fun h => h.1,fun h => ⟨h,hl a h.1⟩⟩
  rw [hreduced,← hsplit,add_comm]
  unfold losesPartners
  simp only [Multiset.filter_filter]
  refine congrArg₂ (· + ·) (Multiset.filter_congr fun a _ => ?_) (Multiset.filter_congr fun a _ => ?_)
  · exact ⟨fun h => ⟨h.2.1,h.1⟩,fun h => ⟨h.2,h.1,fun hp => h.2 hp.of_filter⟩⟩
  · exact ⟨fun h => ⟨h.2.1,h.1,h.2.2⟩,fun h => ⟨h.2.1,h.1,h.2.2⟩⟩

theorem filter_partnered_reduced {keep : L → Prop} [DecidablePred keep] (hl : ∀ a, keep a → pl a) :
    (((l.filter pl).filter (Partnered on (r.filter pr))).filter keep) + (losesPartners on l r pr).filter keep =
      (l.filter (Partnered on r)).filter keep := by
  rw [← Multiset.filter_add_not (Partnered on (r.filter pr)) ((l.filter (Partnered on r)).filter keep)]
  unfold losesPartners
  simp only [Multiset.filter_filter]
  refine congrArg₂ (· + ·) (Multiset.filter_congr fun a _ => ?_) (Multiset.filter_congr fun a _ => ?_)
  · exact ⟨fun h => ⟨h.2.1,h.1,h.2.1.of_filter⟩,fun h => ⟨h.2.1,h.1,hl a h.2.1⟩⟩
  · exact ⟨fun h => ⟨h.2.2,h.1,h.2.1⟩,fun h => ⟨h.2.1,h.2.2,h.1⟩⟩

theorem losesPartners_filter_eq_zero {keep : L → Prop} [DecidablePred keep] :
    (losesPartners on l r pr).filter keep = 0 ↔
      ∀ a ∈ l, keep a → Partnered on r a → Partnered on (r.filter pr) a := by
  unfold losesPartners
  rw [Multiset.filter_filter,Multiset.filter_eq_nil]
  refine forall₂_congr fun a _ => ?_
  rw [not_and,not_and,not_not]

section Kinds
variable {l r} {γ : Type*} {out : Option L × Option R → γ} (hl : ∀ a y, keeps (some a,y) → pl a)
  (hr : ∀ x b, keeps (x,some b) → pr b)
include hl

theorem filter_thetaLeftOnly_reduced :
    (thetaLeftOnly on (l.filter pl) (r.filter pr)).filter keeps = (thetaLeftOnly on l r).filter keeps +
      ((losesPartners on l r pr).filter fun a => keeps (some a,none)).map fun a => (some a,none) := by
  unfold thetaLeftOnly
  rw [Multiset.filter_map,Multiset.filter_map,← Multiset.map_add]
  exact congrArg _ (filter_alone_reduced l r fun a => hl a none)

theorem filter_thetaSemi_reduced :
    (thetaSemi on (l.filter pl) (r.filter pr)).filter keeps +
      ((losesPartners on l r pr).filter fun a => keeps (some a,none)).map (fun a => (some a,none)) =
        (thetaSemi on l r).filter keeps := by
  unfold thetaSemi
  rw [Multiset.filter_map,Multiset.filter_map,← Multiset.map_add]
  exact congrArg _ (filter_partnered_reduced l r fun a => hl a none)

omit hl in
include hr in
theorem filter_thetaRightOnly_reduced :
    (thetaRightOnly on (l.filter pl) (r.filter pr)).filter keeps = (thetaRightOnly on l r).filter keeps +
      ((losesPartners (fun b a => on a b) r l pl).filter fun b => keeps (none,some b)).map fun b => (none,some b) := by
  unfold thetaRightOnly
  rw [Multiset.filter_map,Multiset.filter_map,← Multiset.map_add]
  exact congrArg _ (filter_alone_reduced r l fun b => hr none b)

include hr

/-- Filters on the inputs that a filter on the joined rows implies change its result only through the rows
that lose all of their partners and that the filter keeps alone. -/
theorem filter_thetaJoin_reduced_iff (kind : JoinKind) :
    ((thetaJoin on kind (l.filter pl) (r.filter pr)).filter keeps).map out =
        ((thetaJoin on kind l r).filter keeps).map out ↔
      (kind.LeftAlone → ∀ a ∈ l, keeps (some a,none) → Partnered on r a → Partnered on (r.filter pr) a) ∧
      (kind.RightAlone → ∀ b ∈ r, keeps (none,some b) → Partnered (fun b a => on a b) l b →
        Partnered (fun b a => on a b) (l.filter pl) b) := by
  have hpairs := @filter_thetaPairs_reduced _ _ on _ keeps _ pl _ pr _ l r (fun a b => hl a (some b))
    fun a b => hr (some a) b
  have hleft := @filter_thetaLeftOnly_reduced _ _ on _ keeps _ pl _ pr _ l r hl
  have hright := @filter_thetaRightOnly_reduced _ _ on _ keeps _ pl _ pr _ l r hr
  have hsemi := @filter_thetaSemi_reduced _ _ on _ keeps _ pl _ pr _ l r hl
  have hlost := @losesPartners_filter_eq_zero _ _ on _ pr _ l r (fun a => keeps (some a,none)) _
  have hlost' := @losesPartners_filter_eq_zero _ _ (fun b a => on a b) _ pl _ r l (fun b => keeps (none,some b)) _
  cases kind with
  | inner =>
    unfold thetaJoin
    rw [hpairs]
    simp [JoinKind.LeftAlone,JoinKind.RightAlone]
  | left =>
    unfold thetaJoin
    rw [Multiset.filter_add,Multiset.filter_add,hpairs,hleft,← add_assoc,Multiset.map_add,add_eq_left,
      Multiset.map_eq_zero,Multiset.map_eq_zero,hlost]
    simp [JoinKind.LeftAlone,JoinKind.RightAlone]
  | right =>
    unfold thetaJoin
    dsimp only
    rw [Multiset.filter_add,Multiset.filter_add,hpairs,hright,← add_assoc,Multiset.map_add,add_eq_left,
      Multiset.map_eq_zero,Multiset.map_eq_zero,hlost']
    simp [JoinKind.LeftAlone,JoinKind.RightAlone]
  | full =>
    unfold thetaJoin
    dsimp only
    have hsum : ∀ p a a' b b' : Multiset (Option L × Option R), p + (a + a') + (b + b') = p + a + b + (a' + b') := by
      intro p a a' b b'
      abel
    rw [Multiset.filter_add,Multiset.filter_add,Multiset.filter_add,Multiset.filter_add,hpairs,hleft,hright,
      hsum,Multiset.map_add,add_eq_left,Multiset.map_eq_zero,add_eq_zero,Multiset.map_eq_zero,Multiset.map_eq_zero,
      hlost,hlost']
    simp [JoinKind.LeftAlone,JoinKind.RightAlone]
  | semi =>
    unfold thetaJoin
    dsimp only
    rw [← hsemi,Multiset.map_add,left_eq_add,Multiset.map_eq_zero,Multiset.map_eq_zero,hlost]
    simp [JoinKind.LeftAlone,JoinKind.RightAlone]

end Kinds
end Reduced
end ThetaJoin
end Dodam.Foundation
