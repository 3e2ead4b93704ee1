import Mathlib.Data.Multiset.Bind

/-! # Joins of two multisets on nullable keys

The declarative meaning of the SQL equi-joins. A row whose key is absent joins nothing; the
preserved side of an outer join pads its unmatched rows once.
-/
namespace Dodam.Foundation

inductive JoinKind
  | inner
  | left
  | right
  | full
  | semi
deriving DecidableEq, Repr

section Keys
variable {K : Type*}

/-- Two nullable keys join when both are present and equal. -/
def Joins (a b : Option K) : Prop := a.isSome ∧ a = b

instance [DecidableEq K] (a b : Option K) : Decidable (Joins a b) :=
  inferInstanceAs (Decidable (_ ∧ _))

theorem Joins.symm {a b : Option K} (h : Joins a b) : Joins b a := by
  obtain ⟨hs,rfl⟩ := h
  exact ⟨hs,rfl⟩

theorem joins_comm {a b : Option K} : Joins a b ↔ Joins b a := ⟨Joins.symm,Joins.symm⟩

@[simp] theorem not_joins_none_left (b : Option K) : ¬ Joins none b := by simp [Joins]
@[simp] theorem not_joins_none_right (a : Option K) : ¬ Joins a none := by
  rw [joins_comm]
  exact not_joins_none_left a
@[simp] theorem joins_some_left {k : K} {b : Option K} : Joins (some k) b ↔ b = some k := by
  simp [Joins,eq_comm]

end Keys

section Join
variable {L R K : Type*} [DecidableEq K] (kl : L → Option K) (kr : R → Option K)

/-- The rows of `r` that join a row of the other side. -/
def matching (r : Multiset R) (a : L) : Multiset R := r.filter fun b => Joins (kl a) (kr b)

/-- No row of `r` joins `a`. -/
def Unmatched (r : Multiset R) (a : L) : Prop := ∀ b ∈ r, ¬ Joins (kl a) (kr b)

instance (r : Multiset R) (a : L) : Decidable (Unmatched kl kr r a) :=
  inferInstanceAs (Decidable (∀ b ∈ r, _))

def innerPairs (l : Multiset L) (r : Multiset R) : Multiset (Option L × Option R) :=
  l.bind fun a => (matching kl kr r a).map fun b => (some a,some b)

/-- The rows of the left input without a partner, padded on the right. -/
def leftOnly (l : Multiset L) (r : Multiset R) : Multiset (Option L × Option R) :=
  (l.filter (Unmatched kl kr r)).map fun a => (some a,none)

/-- The rows of the right input without a partner, padded on the left. -/
def rightOnly (l : Multiset L) (r : Multiset R) : Multiset (Option L × Option R) :=
  (r.filter (Unmatched kr kl l)).map fun b => (none,some b)

/-- The rows of the left input with at least one partner. -/
def semiRows (l : Multiset L) (r : Multiset R) : Multiset (Option L × Option R) :=
  (l.filter fun a => ¬ Unmatched kl kr r a).map fun a => (some a,none)

def nestedLoopJoin (kind : JoinKind) (l : Multiset L) (r : Multiset R) :
    Multiset (Option L × Option R) :=
  match kind with
  | .inner => innerPairs kl kr l r
  | .left => innerPairs kl kr l r + leftOnly kl kr l r
  | .right => innerPairs kl kr l r + rightOnly kl kr l r
  | .full => innerPairs kl kr l r + leftOnly kl kr l r + rightOnly kl kr l r
  | .semi => semiRows kl kr l r

@[simp] theorem matching_zero (a : L) : matching kl kr 0 a = 0 := by simp [matching]
@[simp] theorem matching_add (r s : Multiset R) (a : L) :
    matching kl kr (r + s) a = matching kl kr r a + matching kl kr s a := by simp [matching]

omit [DecidableEq K] in
@[simp] theorem unmatched_zero (a : L) : Unmatched kl kr (0 : Multiset R) a := by
  intro b hb
  exact absurd hb (Multiset.notMem_zero b)
omit [DecidableEq K] in
theorem unmatched_of_none {a : L} (h : kl a = none) (r : Multiset R) : Unmatched kl kr r a := by
  intro b _
  simp [h]
omit [DecidableEq K] in
@[simp] theorem unmatched_add (r s : Multiset R) (a : L) :
    Unmatched kl kr (r + s) a ↔ Unmatched kl kr r a ∧ Unmatched kl kr s a := by
  simp [Unmatched,or_imp,forall_and]
theorem unmatched_iff_matching (r : Multiset R) (a : L) :
    Unmatched kl kr r a ↔ matching kl kr r a = 0 := by
  simp [Unmatched,matching,Multiset.filter_eq_nil]

@[simp] theorem innerPairs_zero_left (r : Multiset R) : innerPairs kl kr 0 r = 0 := by
  simp [innerPairs]
@[simp] theorem innerPairs_zero_right (l : Multiset L) : innerPairs kl kr l 0 = 0 := by
  simp [innerPairs]
@[simp] theorem innerPairs_add_left (l l' : Multiset L) (r : Multiset R) :
    innerPairs kl kr (l + l') r = innerPairs kl kr l r + innerPairs kl kr l' r := by
  simp [innerPairs]
@[simp] theorem innerPairs_add_right (l : Multiset L) (r r' : Multiset R) :
    innerPairs kl kr l (r + r') = innerPairs kl kr l r + innerPairs kl kr l r' := by
  simp [innerPairs]

theorem innerPairs_singleton_left (a : L) (r : Multiset R) :
    innerPairs kl kr {a} r = (matching kl kr r a).map fun b => (some a,some b) := by
  simp [innerPairs]

theorem bind_matching_singleton (a : L) (r : Multiset R) :
    (r.bind fun b => (matching kr kl {a} b).map fun a => (some a,some b)) =
      (matching kl kr r a).map fun b => (some a,some b) := by
  induction r using Multiset.induction_on with
  | empty => simp
  | cons b r ih =>
    rw [Multiset.cons_bind,ih,← Multiset.singleton_add b r,matching_add,Multiset.map_add]
    congr 1
    by_cases hj : Joins (kl a) (kr b)
    · simp [matching,Multiset.filter_singleton,hj,joins_comm.mp hj]
    · have hj' : ¬ Joins (kr b) (kl a) := fun h => hj h.symm
      simp [matching,Multiset.filter_singleton,hj,hj']

theorem innerPairs_eq_bind_right (l : Multiset L) (r : Multiset R) :
    innerPairs kl kr l r =
      r.bind fun b => (matching kr kl l b).map fun a => (some a,some b) := by
  induction l using Multiset.induction_on with
  | empty => simp
  | cons a l ih =>
    have hs : ∀ b : R, (matching kr kl (a ::ₘ l) b).map (fun a => (some a,some b)) =
        (matching kr kl {a} b).map (fun a => (some a,some b)) +
          (matching kr kl l b).map (fun a => (some a,some b)) := by
      intro b
      rw [← Multiset.map_add,← matching_add,Multiset.singleton_add]
    simp only [hs,Multiset.bind_add,bind_matching_singleton]
    rw [← ih,← Multiset.singleton_add a l,innerPairs_add_left,innerPairs_singleton_left]

omit [DecidableEq K] in
theorem bind_ite {β : Type*} (s : Multiset L) (p : L → Prop) [DecidablePred p] (f g : L → Multiset β) :
    (s.bind fun a => if p a then f a else g a) =
      (s.filter p).bind f + (s.filter fun a => ¬ p a).bind g := by
  induction s using Multiset.induction_on with
  | empty => simp
  | cons a s ih =>
    by_cases h : p a
    · simp [ih,h,add_assoc]
    · simp [ih,h,add_left_comm]

theorem bind_probe {β : Type*} (l : Multiset L) (r : Multiset R) (pad : L → Multiset β)
    (pair : L → R → β) :
    (l.bind fun a => if Unmatched kl kr r a then pad a else (matching kl kr r a).map (pair a)) =
      (l.bind fun a => (matching kl kr r a).map (pair a)) +
        (l.filter (Unmatched kl kr r)).bind pad := by
  have hsplit := bind_ite l (Unmatched kl kr r) (fun a => (matching kl kr r a).map (pair a))
    fun a => (matching kl kr r a).map (pair a)
  simp only [ite_self] at hsplit
  have hzero : ((l.filter (Unmatched kl kr r)).bind fun a => (matching kl kr r a).map (pair a)) = 0 := by
    rw [← Multiset.bind_zero (l.filter (Unmatched kl kr r))]
    refine Multiset.bind_congr fun a ha => ?_
    rw [(unmatched_iff_matching kl kr r a).mp (Multiset.mem_filter.mp ha).2,Multiset.map_zero]
  rw [bind_ite,hsplit,hzero,zero_add,add_comm]

theorem bind_semi (l : Multiset L) (r : Multiset R) :
    (l.bind fun a => if Unmatched kl kr r a then 0 else ({(some a,none)} : Multiset (Option L × Option R))) =
      semiRows kl kr l r := by
  rw [bind_ite,Multiset.bind_zero,zero_add,Multiset.bind_singleton]
  rfl

end Join
end Dodam.Foundation
