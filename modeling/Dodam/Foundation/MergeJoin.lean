import Dodam.Foundation.Join
import Mathlib.Data.List.TakeWhile

/-! # Joining two sorted lists

A merge join walks two lists that are sorted by a nullable key, NULLs last: the smaller key is
passed by, and two runs with the same key give all their pairs.
-/
namespace Dodam.Foundation

section Sorted
variable {K : Type*} [LinearOrder K]

/-- The order of nullable keys with NULLs last. -/
def KeyLe : Option K → Option K → Prop
  | _,none => True
  | none,some _ => False
  | some a,some b => a ≤ b

instance (a b : Option K) : Decidable (KeyLe a b) := by
  unfold KeyLe
  split <;> infer_instance

theorem keyLe_total (a b : Option K) : KeyLe a b ∨ KeyLe b a := by
  cases a with
  | none => exact .inr (by cases b <;> trivial)
  | some a =>
    cases b with
    | none => exact .inl trivial
    | some b => exact le_total a b

theorem KeyLe.trans {a b c : Option K} (h : KeyLe a b) (h' : KeyLe b c) : KeyLe a c := by
  cases c with
  | none => trivial
  | some c =>
    cases b with
    | none => exact h'.elim
    | some b =>
      cases a with
      | none => exact h.elim
      | some a => exact le_trans h h'

def KeySorted {L : Type*} (key : L → Option K) (l : List L) : Prop := l.Pairwise fun a b => KeyLe (key a) (key b)

theorem KeySorted.ne_of_mem_dropWhile {L : Type*} [DecidableEq K] {key : L → Option K} {a : L} {l : List L} {k : K} (h : KeySorted key (a :: l))
    (ha : key a = some k) : ∀ b ∈ l.dropWhile fun b => key b = some k, key b ≠ some k := by
  intro b hb heq
  cases hrest : l.dropWhile fun b => key b = some k with
  | nil =>
    rw [hrest] at hb
    cases hb
  | cons c rest =>
    have hc : ¬key c = some k := by
      have hhead := List.head_dropWhile_not (fun b => decide (key b = some k)) (l := l) (by rw [hrest]; exact List.cons_ne_nil _ _)
      simp only [hrest,List.head_cons,decide_eq_false_iff_not] at hhead
      exact hhead
    have hsuffix : c :: rest <:+ l := hrest ▸ List.dropWhile_suffix _
    obtain ⟨hfirst,htail⟩ := List.pairwise_cons.mp h
    have hbelow := hfirst c (hsuffix.mem List.mem_cons_self)
    rw [hrest] at hb
    have habove : KeyLe (key c) (key b) := by
      rcases List.mem_cons.mp hb with rfl | hb
      · exact (keyLe_total _ _).elim id id
      · exact (List.pairwise_cons.mp (htail.sublist hsuffix.sublist)).1 b hb
    rw [heq] at habove
    rw [ha] at hbelow
    cases hkey : key c with
    | none =>
      rw [hkey] at habove
      exact habove
    | some k' =>
      rw [hkey] at habove hbelow hc
      exact hc (congrArg some (le_antisymm habove hbelow))

theorem KeySorted.ne_of_lt {X : Type*} {key : X → Option K} {x : X} {l : List X} {k k' : K} (h : KeySorted key (x :: l))
    (hx : key x = some k') (hlt : k < k') : ∀ y ∈ x :: l, key y ≠ some k := by
  intro y hy heq
  rcases List.mem_cons.mp hy with rfl | hy
  · rw [hx] at heq
    exact hlt.ne' (Option.some.inj heq)
  · have hle := (List.pairwise_cons.mp h).1 y hy
    rw [hx,heq] at hle
    exact hlt.not_ge hle

end Sorted

section Pairs
variable {L R K : Type*} [DecidableEq K] {kl : L → Option K} {kr : R → Option K} {left : List L} {right : List R}

theorem innerPairs_eq_zero {l : Multiset L} {r : Multiset R} (h : ∀ a ∈ l, ∀ b ∈ r, ¬Joins (kl a) (kr b)) :
    innerPairs kl kr l r = 0 := by
  refine Multiset.eq_zero_of_forall_notMem fun pair hpair => ?_
  obtain ⟨a,ha,hpair⟩ := Multiset.mem_bind.mp hpair
  obtain ⟨b,hb,-⟩ := Multiset.mem_map.mp hpair
  obtain ⟨hb,hjoins⟩ := Multiset.mem_filter.mp hb
  exact h a ha b hb hjoins

theorem innerPairs_run {k : K} {l : List L} {r : List R} (hl : ∀ a ∈ l, kl a = some k) (hr : ∀ b ∈ r, kr b = some k) :
    innerPairs kl kr (↑l) (↑r) = ↑((l ×ˢ r).map fun pair => (some pair.1,some pair.2)) := by
  induction l with
  | nil => exact innerPairs_zero_left kl kr _
  | cons a l ih =>
    have hrest := ih fun a ha => hl a (List.mem_cons_of_mem _ ha)
    have hall : matching kl kr (↑r) a = ↑r := by
      refine Multiset.filter_eq_self.mpr fun b hb => ?_
      rw [hl a List.mem_cons_self,hr b (Multiset.mem_coe.mp hb)]
      exact ⟨rfl,rfl⟩
    have hcons : (↑(a :: l) : Multiset L) = {a} + ↑l := rfl
    rw [hcons,innerPairs_add_left,hrest,innerPairs,Multiset.singleton_bind,hall,List.product_cons,List.map_append,
      List.map_map,← Multiset.coe_add,Multiset.map_coe]
    rfl

theorem innerPairs_runs {k : K} {run rest : List L} {run' rest' : List R} (hrun : ∀ a ∈ run, kl a = some k)
    (hrun' : ∀ b ∈ run', kr b = some k) (hrest : ∀ a ∈ rest, kl a ≠ some k) (hrest' : ∀ b ∈ rest', kr b ≠ some k) :
    innerPairs kl kr (↑(run ++ rest)) (↑(run' ++ rest')) =
      ↑((run ×ˢ run').map fun pair => (some pair.1,some pair.2)) + innerPairs kl kr (↑rest) (↑rest') := by
  have hbehind : innerPairs kl kr (↑run) (↑rest') = 0 := innerPairs_eq_zero fun a ha b hb => by
    rw [hrun a ha,joins_some_left]
    exact hrest' b hb
  have hbehind' : innerPairs kl kr (↑rest) (↑run') = 0 := innerPairs_eq_zero fun a ha b hb => by
    rw [hrun' b hb,joins_comm,joins_some_left]
    exact hrest a ha
  rw [← Multiset.coe_add,← Multiset.coe_add,innerPairs_add_left,innerPairs_add_right,innerPairs_add_right,hbehind,hbehind',
    add_zero,zero_add,innerPairs_run hrun hrun']

theorem innerPairs_cons_left {a : L} (h : ∀ b ∈ right, ¬Joins (kl a) (kr b)) :
    innerPairs kl kr (↑(a :: left)) (↑right) = innerPairs kl kr (↑left) (↑right) := by
  have hcons : (↑(a :: left) : Multiset L) = {a} + ↑left := rfl
  rw [hcons,innerPairs_add_left,innerPairs_eq_zero,zero_add]
  intro a' ha b hb
  rw [Multiset.mem_singleton.mp ha]
  exact h b (Multiset.mem_coe.mp hb)

theorem innerPairs_cons_right {b : R} (h : ∀ a ∈ left, ¬Joins (kl a) (kr b)) :
    innerPairs kl kr (↑left) (↑(b :: right)) = innerPairs kl kr (↑left) (↑right) := by
  have hcons : (↑(b :: right) : Multiset R) = {b} + ↑right := rfl
  rw [hcons,innerPairs_add_right,innerPairs_eq_zero,zero_add]
  intro a ha b' hb
  rw [Multiset.mem_singleton.mp hb]
  exact h a (Multiset.mem_coe.mp ha)

theorem innerPairs_congr {K' : Type*} [DecidableEq K'] {kl' : L → Option K'} {kr' : R → Option K'} {l : Multiset L}
    {r : Multiset R} (h : ∀ a ∈ l, ∀ b ∈ r, (Joins (kl a) (kr b) ↔ Joins (kl' a) (kr' b))) :
    innerPairs kl kr l r = innerPairs kl' kr' l r := by
  refine Multiset.bind_congr fun a ha => ?_
  rw [matching,matching,Multiset.filter_congr fun b hb => h a ha b hb]

end Pairs

section Merge
variable {L R K : Type*} [LinearOrder K] [DecidableEq K] (kl : L → Option K) (kr : R → Option K)

def mergeJoin : List L → List R → List (L × R)
  | a :: left,b :: right =>
    match kl a,kr b with
    | none,_ => mergeJoin left (b :: right)
    | some _,none => mergeJoin (a :: left) right
    | some k,some k' =>
      if k < k' then mergeJoin left (b :: right)
      else if k' < k then mergeJoin (a :: left) right
      else
        (a :: left.takeWhile fun a => kl a = some k) ×ˢ (b :: right.takeWhile fun b => kr b = some k) ++
          mergeJoin (left.dropWhile fun a => kl a = some k) (right.dropWhile fun b => kr b = some k)
  | _,_ => []
termination_by left right => left.length + right.length
decreasing_by
  · simp only [List.length_cons]; omega
  · simp only [List.length_cons]; omega
  · simp only [List.length_cons]; omega
  · simp only [List.length_cons]; omega
  · have hleft := (List.dropWhile_sublist (l := left) fun a => decide (kl a = some k)).length_le
    have hright := (List.dropWhile_sublist (l := right) fun b => decide (kr b = some k)).length_le
    simp only [List.length_cons]
    omega

variable {kl kr} {left : List L} {right : List R}

theorem mergeJoin_eq_innerPairs (hleft : KeySorted kl left) (hright : KeySorted kr right) :
    (↑((mergeJoin kl kr left right).map fun pair => (some pair.1,some pair.2)) : Multiset (Option L × Option R)) =
      innerPairs kl kr (↑left) (↑right) := by
  fun_induction mergeJoin kl kr left right with
  | case1 a left b right hnone ih =>
    rw [ih hleft.of_cons hright,innerPairs_cons_left fun b _ => by rw [hnone]; exact not_joins_none_left _]
  | case2 a left b right k hnone hk ih =>
    rw [ih hleft hright.of_cons,innerPairs_cons_right fun a _ => by rw [hnone]; exact not_joins_none_right _]
  | case3 a left b right k k' hk' hk hlt ih =>
    have hne := hright.ne_of_lt hk' hlt
    rw [ih hleft.of_cons hright,innerPairs_cons_left fun b hb => by rw [hk,joins_some_left]; exact hne b hb]
  | case4 a left b right k k' hk' hk _ hlt ih =>
    have hne := hleft.ne_of_lt hk hlt
    rw [ih hleft hright.of_cons,innerPairs_cons_right fun a ha => by rw [hk',joins_comm,joins_some_left]; exact hne a ha]
  | case5 a left b right k k' hk' hk hge hge' ih =>
    obtain rfl : k = k' := le_antisymm (not_lt.mp hge') (not_lt.mp hge)
    have hrest := ih (hleft.of_cons.sublist (List.dropWhile_sublist _)) (hright.of_cons.sublist (List.dropWhile_sublist _))
    have hrun : ∀ x ∈ a :: left.takeWhile fun a => kl a = some k, kl x = some k := by
      intro x hx
      rcases List.mem_cons.mp hx with rfl | hx
      · exact hk
      · simpa using List.mem_takeWhile_imp hx
    have hrun' : ∀ x ∈ b :: right.takeWhile fun b => kr b = some k, kr x = some k := by
      intro x hx
      rcases List.mem_cons.mp hx with rfl | hx
      · exact hk'
      · simpa using List.mem_takeWhile_imp hx
    have hsplit : a :: left = (a :: left.takeWhile fun a => kl a = some k) ++ left.dropWhile fun a => kl a = some k := by
      rw [List.cons_append,List.takeWhile_append_dropWhile]
    have hsplit' : b :: right = (b :: right.takeWhile fun b => kr b = some k) ++ right.dropWhile fun b => kr b = some k := by
      rw [List.cons_append,List.takeWhile_append_dropWhile]
    rw [List.map_append,← Multiset.coe_add,hrest,hsplit,hsplit',
      innerPairs_runs hrun hrun' (hleft.ne_of_mem_dropWhile hk) (hright.ne_of_mem_dropWhile hk')]
  | case6 left right hstop =>
    cases left with
    | nil => exact (innerPairs_zero_left kl kr _).symm
    | cons a left =>
      cases right with
      | nil => exact (innerPairs_zero_right kl kr _).symm
      | cons b right => exact (hstop a left b right rfl rfl).elim

end Merge
end Dodam.Foundation
