import Dodam.Foundation.Fold
import Dodam.Foundation.Runs

/-! # Selecting elements by position

The elements of a list at the selected positions, taken piece by piece: list by list, or range
by range when the positions are given as sorted ranges.
-/
namespace Dodam.Foundation

variable {α β : Type*}

/-- The elements at selected positions; the first element has position `i`. -/
def selectAt (p : ℕ → Prop) [DecidablePred p] : ℕ → List α → List α
  | _, [] => []
  | i, a :: l => if p i then a :: selectAt p (i + 1) l else selectAt p (i + 1) l

/-- The elements from position `a` to before position `b`. -/
def slice (l : List α) (a b : ℕ) : List α := (l.drop a).take (b - a)

section SelectAt
variable {p q : ℕ → Prop} [DecidablePred p] [DecidablePred q]

@[simp] theorem selectAt_nil (i : ℕ) : selectAt p i ([] : List α) = [] := rfl

theorem selectAt_append (i : ℕ) (l l' : List α) :
    selectAt p i (l ++ l') = selectAt p i l ++ selectAt p (i + l.length) l' := by
  induction l generalizing i with
  | nil => simp
  | cons a l ih =>
    have hlen : i + (a :: l).length = i + 1 + l.length := by
      rw [List.length_cons]
      omega
    rw [List.cons_append,selectAt,selectAt,ih,hlen]
    split_ifs
    · rfl
    · rfl

variable {l : List α}

theorem selectAt_congr {i : ℕ} (h : ∀ j, i ≤ j → j < i + l.length → (p j ↔ q j)) :
    selectAt p i l = selectAt q i l := by
  induction l generalizing i with
  | nil => rfl
  | cons a l ih =>
    rw [List.length_cons] at h
    have hrest := ih (i := i + 1) fun j hj hlt => h j (by omega) (by omega)
    have hhead := h i le_rfl (by omega)
    by_cases hp : p i
    · rw [selectAt,selectAt,if_pos hp,if_pos (hhead.mp hp),hrest]
    · rw [selectAt,selectAt,if_neg hp,if_neg (mt hhead.mpr hp),hrest]

theorem selectAt_add (k i : ℕ) (l : List α) :
    selectAt (fun j => p (k + j)) i l = selectAt p (k + i) l := by
  induction l generalizing i with
  | nil => rfl
  | cons a l ih => rw [selectAt,selectAt,ih,Nat.add_assoc]

theorem selectAt_all {i : ℕ} (h : ∀ j, i ≤ j → j < i + l.length → p j) : selectAt p i l = l := by
  induction l generalizing i with
  | nil => rfl
  | cons a l ih =>
    rw [List.length_cons] at h
    rw [selectAt,if_pos (h i le_rfl (by omega)),ih fun j hj hlt => h j (by omega) (by omega)]

theorem selectAt_none {i : ℕ} (h : ∀ j, i ≤ j → j < i + l.length → ¬p j) : selectAt p i l = [] := by
  induction l generalizing i with
  | nil => rfl
  | cons a l ih =>
    rw [List.length_cons] at h
    rw [selectAt,if_neg (h i le_rfl (by omega)),ih fun j hj hlt => h j (by omega) (by omega)]

theorem selectAt_map (f : α → β) (i : ℕ) (l : List α) : selectAt p i (l.map f) = (selectAt p i l).map f := by
  induction l generalizing i with
  | nil => rfl
  | cons a l ih =>
    rw [List.map_cons,selectAt,selectAt,ih]
    split_ifs
    · rfl
    · rfl

theorem selectAt_sublist (i : ℕ) (l : List α) : (selectAt p i l).Sublist l := by
  induction l generalizing i with
  | nil => exact .refl _
  | cons a l ih =>
    rw [selectAt]
    split_ifs
    · exact (ih (i + 1)).cons_cons a
    · exact (ih (i + 1)).cons a

theorem length_selectAt_flags {flags : List Bool} (h : l.length = flags.length) :
    (selectAt (fun i => flags[i]? = some true) 0 l).length = flags.count true := by
  induction flags generalizing l with
  | nil =>
    rw [List.eq_nil_of_length_eq_zero h]
    rfl
  | cons flag flags ih =>
    obtain ⟨a,l,rfl⟩ := List.exists_cons_of_length_eq_add_one h
    have hrest : selectAt (fun i => (flag :: flags)[i]? = some true) 1 l =
        selectAt (fun i => flags[i]? = some true) 0 l := by
      rw [← selectAt_add 1 0 l]
      refine selectAt_congr fun j _ _ => ?_
      rw [Nat.add_comm,List.getElem?_cons_succ]
    have hlen := ih (Nat.succ.inj h)
    rw [selectAt,hrest]
    cases flag with
    | true => rw [if_pos List.getElem?_cons_zero,List.length_cons,hlen,List.count_cons_self]
    | false => rw [if_neg (fun h => nomatch h),hlen,List.count_cons_of_ne Bool.false_ne_true]

end SelectAt

/-- Sorted ranges of positions that hold the selected ones from `lo` to before `hi`. -/
inductive RangesOf (p : ℕ → Prop) (hi : ℕ) : ℕ → List (ℕ × ℕ) → Prop
  | nil {lo : ℕ} (hnone : ∀ i, lo ≤ i → i < hi → ¬p i) : RangesOf p hi lo []
  | cons {lo a b : ℕ} {ranges : List (ℕ × ℕ)} (hlo : lo ≤ a) (hle : a ≤ b) (hhi : b ≤ hi)
      (hbefore : ∀ i, lo ≤ i → i < a → ¬p i) (hin : ∀ i, a ≤ i → i < b → p i) (hrest : RangesOf p hi b ranges) :
      RangesOf p hi lo ((a,b) :: ranges)

variable {l values stored : List α} {a b hi lo : ℕ} {ranges runs : List (ℕ × ℕ)} {elements : List (Option α)}
variable {present : List Bool}

theorem drop_eq_slice_append (hab : a ≤ b) : l.drop a = slice l a b ++ l.drop b := by
  have hdrop : (l.drop a).drop (b - a) = l.drop b := by
    rw [List.drop_drop,Nat.add_sub_cancel' hab]
  rw [slice,← hdrop,List.take_append_drop]

theorem take_eq_take_append_slice (hab : a ≤ b) : l.take b = l.take a ++ slice l a b := by
  obtain ⟨n,rfl⟩ := Nat.exists_eq_add_of_le hab
  rw [slice,Nat.add_sub_cancel_left,List.take_add]

theorem slice_map (f : α → β) (l : List α) (a b : ℕ) : slice (l.map f) a b = (slice l a b).map f := by
  rw [slice,slice,List.map_take,List.map_drop]

theorem slice_append_of_le {rest : List α} (hab : a ≤ b) (hb : b ≤ l.length) :
    slice (l ++ rest) a b = slice l a b := by
  rw [slice,slice,List.drop_append_of_le_length (by omega),List.take_append_of_le_length (by
    rw [List.length_drop]
    omega)]

theorem length_slice (hb : b ≤ l.length) : (slice l a b).length = b - a := by
  rw [slice,List.length_take,List.length_drop]
  omega

theorem RangesOf.selectAt_eq {p : ℕ → Prop} [DecidablePred p]
    (h : RangesOf p hi lo ranges) (hlen : l.length = hi) (hlo : lo ≤ hi) :
    selectAt p lo (l.drop lo) = ranges.flatMap fun r => slice l r.1 r.2 := by
  induction h with
  | nil hnone =>
    refine selectAt_none fun j hj hlt => hnone j hj ?_
    rw [List.length_drop] at hlt
    omega
  | @cons lo a b ranges hla hab hbh hbefore hin hrest ih =>
    have hskip : (slice l lo a).length = a - lo := length_slice (by omega)
    have htake : (slice l a b).length = b - a := length_slice (by omega)
    have hnone : selectAt p lo (slice l lo a) = [] :=
      selectAt_none fun j hj hlt => hbefore j hj (by omega)
    have hall : selectAt p a (slice l a b) = slice l a b :=
      selectAt_all fun j hj hlt => hin j hj (by omega)
    have ha : lo + (slice l lo a).length = a := by omega
    have hb : a + (slice l a b).length = b := by omega
    rw [drop_eq_slice_append hla,selectAt_append,hnone,List.nil_append,ha,
      drop_eq_slice_append hab,selectAt_append,hall,hb,ih hbh,List.flatMap_cons]

theorem RangesOf.slice_append {p : ℕ → Prop} (h : RangesOf p l.length lo ranges) (rest : List α) :
    (ranges.flatMap fun r => slice (l ++ rest) r.1 r.2) = ranges.flatMap fun r => slice l r.1 r.2 := by
  induction h with
  | nil => rfl
  | cons _ hle hhi _ _ _ ih => rw [List.flatMap_cons,List.flatMap_cons,ih,slice_append_of_le hle hhi]

/-- The ranges of sorted runs, given by start and length, inside a window of positions. -/
def localRanges (start count : ℕ) : List (ℕ × ℕ) → List (ℕ × ℕ)
  | [] => []
  | (s,n) :: runs =>
    if start + count ≤ s then []
    else if s + n ≤ start then localRanges start count runs
    else (max s start - start,min (s + n) (start + count) - start) :: localRanges start count runs

theorem localRanges_rangesOf {p : ℕ → Prop} {start count : ℕ}
    (hpos : ∀ r ∈ runs, 0 < r.2) (hsorted : runs.Pairwise fun r s => r.1 + r.2 ≤ s.1)
    (hcovers : ∀ i, lo ≤ i → i < count → (p i ↔ ∃ r ∈ runs, r.1 ≤ start + i ∧ start + i < r.1 + r.2))
    (hlo : lo = 0 ∨ ∀ r ∈ runs, start + lo ≤ r.1) :
    RangesOf p count lo (localRanges start count runs) := by
  induction runs generalizing lo with
  | nil =>
    refine .nil fun i hi hlt hp => ?_
    obtain ⟨r,hr,-⟩ := (hcovers i hi hlt).mp hp
    cases hr
  | cons r runs ih =>
    obtain ⟨s,n⟩ := r
    obtain ⟨hfirst,hsorted⟩ := List.pairwise_cons.mp hsorted
    have hpos' : ∀ r ∈ runs, 0 < r.2 := fun r hr => hpos r (List.mem_cons_of_mem _ hr)
    rw [localRanges]
    split_ifs with hafter hbefore
    · -- this run and all later ones start behind the window
      refine .nil fun i hi hlt hp => ?_
      obtain ⟨r,hr,hle,-⟩ := (hcovers i hi hlt).mp hp
      rcases List.mem_cons.mp hr with rfl | hr
      · simp only at hle
        omega
      · have := hfirst r hr
        omega
    · refine ih hpos' hsorted (fun i hi hlt => ?_) (hlo.imp id fun h r hr => h r (List.mem_cons_of_mem _ hr))
      rw [hcovers i hi hlt,List.exists_mem_cons_iff]
      refine or_iff_right ?_
      rintro ⟨-,hend⟩
      omega
    · have hstart : lo ≤ max s start - start := by
        rcases hlo with rfl | h
        · exact Nat.zero_le _
        · have := h (s,n) List.mem_cons_self
          omega
      refine .cons hstart (by omega) (by omega) ?_ ?_ (ih hpos' hsorted ?_ (.inr ?_))
      · intro i hi hlt hp
        obtain ⟨r,hr,hle,-⟩ := (hcovers i hi (by omega)).mp hp
        rcases List.mem_cons.mp hr with rfl | hr
        · simp only at hle
          omega
        · have := hfirst r hr
          omega
      · intro i hi hlt
        refine (hcovers i (by omega) (by omega)).mpr ⟨(s,n),List.mem_cons_self,?_⟩
        simp only
        omega
      · intro i hi hlt
        rw [hcovers i (by omega) hlt,List.exists_mem_cons_iff]
        refine or_iff_right ?_
        rintro ⟨-,hend⟩
        simp only at hend
        omega
      · intro r hr
        have := hfirst r hr
        simp only at this
        omega

theorem Marks.rangesOf {p : ℕ → Prop} (h : Marks p runs) (start count : ℕ) :
    RangesOf (fun i => p (start + i)) count 0 (localRanges start count runs) :=
  localRanges_rangesOf h.nonempty h.sorted (fun i _ _ => h.covers (start + i)) (.inl rfl)

def rowsBefore (stop : ℕ) (runs : List (ℕ × ℕ)) : ℕ := (runs.map fun r => min (r.1 + r.2) stop - min r.1 stop).sum

theorem rowsBefore_cons (stop : ℕ) (r : ℕ × ℕ) (runs : List (ℕ × ℕ)) :
    rowsBefore stop (r :: runs) = min (r.1 + r.2) stop - min r.1 stop + rowsBefore stop runs :=
  List.sum_cons

theorem rowsBefore_of_le {stop : ℕ} (h : ∀ r ∈ runs, stop ≤ r.1) : rowsBefore stop runs = 0 := by
  apply List.sum_eq_zero
  intro n hn
  obtain ⟨r,hr,rfl⟩ := List.mem_map.mp hn
  have := h r hr
  omega

theorem rowsBefore_add (hsorted : runs.Pairwise fun r s => r.1 + r.2 ≤ s.1) (start count : ℕ) :
    rowsBefore (start + count) runs = rowsBefore start runs + ((localRanges start count runs).map fun r => r.2 - r.1).sum := by
  induction runs with
  | nil => simp [rowsBefore,localRanges]
  | cons r runs ih =>
    obtain ⟨hfirst,hsorted⟩ := List.pairwise_cons.mp hsorted
    have ih := ih hsorted
    rw [localRanges]
    split_ifs with hafter hbefore
    · have hall : ∀ s ∈ r :: runs, start + count ≤ s.1 := by
        intro s hs
        rcases List.mem_cons.mp hs with rfl | hs
        · exact hafter
        · have := hfirst s hs
          omega
      have hstart : ∀ s ∈ r :: runs, start ≤ s.1 := fun s hs => (Nat.le_add_right _ _).trans (hall s hs)
      simp [rowsBefore_of_le hall,rowsBefore_of_le hstart]
    · have hle : r.1 ≤ r.1 + r.2 := Nat.le_add_right ..
      have hend : r.1 + r.2 ≤ start + count := Nat.le_add_right_of_le hbefore
      rw [rowsBefore_cons,rowsBefore_cons,ih,min_eq_left hend,min_eq_left (hle.trans hend),min_eq_left hbefore,
        min_eq_left (hle.trans hbefore),Nat.add_assoc]
    · have hlow : r.1 ≤ min (r.1 + r.2) (start + count) := le_min (Nat.le_add_right ..) (Nat.le_of_not_le hafter)
      have hwindow : start ≤ min (r.1 + r.2) (start + count) := le_min (Nat.le_of_not_le hbefore) (Nat.le_add_right ..)
      rw [rowsBefore_cons,rowsBefore_cons,ih,min_eq_left (Nat.le_of_not_le hafter),min_eq_right (Nat.le_of_not_le hbefore),
        List.map_cons,List.sum_cons]
      clear ih hfirst hsorted
      rcases le_total r.1 start with h | h
      · rw [max_eq_right h,min_eq_left h]
        omega
      · rw [max_eq_left h,min_eq_right h]
        omega

theorem RangesOf.bounds {p : ℕ → Prop} (h : RangesOf p hi lo ranges) {r : ℕ × ℕ}
    (hr : r ∈ ranges) : r.1 ≤ r.2 ∧ r.2 ≤ hi := by
  induction h with
  | nil => simp at hr
  | cons _ hle hhi _ _ _ ih =>
    rcases List.mem_cons.mp hr with rfl | hr
    · exact ⟨hle,hhi⟩
    · exact ih hr

theorem RangesOf.length_slices {p : ℕ → Prop} (h : RangesOf p l.length lo ranges) :
    (ranges.flatMap fun r => slice l r.1 r.2).length = (ranges.map fun r => r.2 - r.1).sum := by
  induction h with
  | nil => simp
  | cons _ _ hhi _ _ _ ih => simp [ih,length_slice hhi]

theorem Marks.selectAt_eq {p : ℕ → Prop} [DecidablePred p] (h : Marks p runs) (start : ℕ) (l : List α) :
    selectAt p start l = (localRanges start l.length runs).flatMap fun r => slice l r.1 r.2 := by
  have hselect := (h.rangesOf start l.length).selectAt_eq rfl (Nat.zero_le _)
  rwa [List.drop_zero,selectAt_add,Nat.add_zero] at hselect

theorem rowsBefore_add_length {p : ℕ → Prop} [DecidablePred p] (h : Marks p runs) (start : ℕ)
    (l : List α) : rowsBefore (start + l.length) runs = rowsBefore start runs + (selectAt p start l).length := by
  rw [h.selectAt_eq,(h.rangesOf start l.length).length_slices,rowsBefore_add h.sorted]

theorem length_selectAt_of_marks {p : ℕ → Prop} [DecidablePred p] (h : Marks p runs)
    (hbelow : ∀ i, p i → i < l.length) : (selectAt p 0 l).length = (runs.map Prod.snd).sum := by
  have hend : ∀ r ∈ runs, r.1 + r.2 ≤ l.length := by
    intro r hr
    have hpos := h.nonempty r hr
    have := hbelow (r.1 + r.2 - 1) ((h.covers _).mpr ⟨r,hr,by omega,by omega⟩)
    omega
  have hlocal : ∀ runs : List (ℕ × ℕ), (∀ r ∈ runs, 0 < r.2 ∧ r.1 + r.2 ≤ l.length) →
      ((localRanges 0 l.length runs).flatMap fun r => slice l r.1 r.2).length = (runs.map Prod.snd).sum := by
    intro runs hruns
    induction runs with
    | nil => rfl
    | cons r runs ih =>
      obtain ⟨hpos,hle⟩ := hruns r List.mem_cons_self
      have hrest := ih fun r hr => hruns r (List.mem_cons_of_mem _ hr)
      have hlen : (slice l (max r.1 0 - 0) (min (r.1 + r.2) (0 + l.length) - 0)).length = r.2 := by
        rw [length_slice (by omega)]
        omega
      rw [localRanges,if_neg (by omega),if_neg (by omega),List.flatMap_cons,List.length_append,hrest,
        List.map_cons,List.sum_cons]
      exact congrArg (· + _) hlen
  have hranges := (h.rangesOf 0 l.length).selectAt_eq rfl (Nat.zero_le _)
  rw [List.drop_zero,selectAt_add] at hranges
  rw [hranges]
  exact hlocal runs fun r hr => ⟨h.nonempty r hr,hend r hr⟩

/-- Values read for some elements: never more than elements, and the elements themselves when as many. -/
structure Covers (values : List α) (elements : List (Option α)) : Prop where
  le : values.length ≤ elements.length
  eq : values.length = elements.length → values.map some = elements

theorem covers_nil (elements : List (Option α)) : Covers [] elements := by
  refine ⟨Nat.zero_le _,fun h => ?_⟩
  rw [List.eq_nil_of_length_eq_zero h.symm]
  rfl

theorem covers_of_eq (h : values.map some = elements) : Covers values elements :=
  ⟨by rw [← h,List.length_map],fun _ => h⟩

theorem Covers.append {values' : List α} {elements' : List (Option α)}
    (h : Covers values elements) (h' : Covers values' elements') :
    Covers (values ++ values') (elements ++ elements') := by
  have hle := h.le
  have hle' := h'.le
  refine ⟨by simp only [List.length_append]; omega,fun heq => ?_⟩
  simp only [List.length_append] at heq
  rw [List.map_append,h.eq (by omega),h'.eq (by omega)]

/-- Elements with flags for those present; the present ones are the first of the stored values. -/
structure Scattered (present : List Bool) (stored : List α) (elements : List (Option α)) : Prop where
  flags : elements.map Option.isSome = present
  stored : elements.filterMap id <+: stored

theorem length_filterMap_id (l : List (Option α)) : (l.filterMap id).length = (l.map Option.isSome).count true := by
  induction l with
  | nil => rfl
  | cons a l ih =>
    cases a with
    | none => simpa using ih
    | some x => simpa using ih

theorem Scattered.length_eq
    (h : Scattered present stored elements) : present.length = elements.length := by
  rw [← h.flags,List.length_map]

theorem Scattered.count_le
    (h : Scattered present stored elements) : present.count true ≤ stored.length := by
  rw [← h.flags,← length_filterMap_id]
  exact h.stored.length_le

theorem Scattered.drop (h : Scattered present stored elements) (a : ℕ) :
    Scattered (present.drop a) (stored.drop ((present.take a).count true)) (elements.drop a) := by
  refine ⟨by rw [List.map_drop,h.flags],?_⟩
  have hsplit : (elements.take a).filterMap id ++ (elements.drop a).filterMap id = elements.filterMap id := by
    rw [← List.filterMap_append,List.take_append_drop]
  have hlen : ((elements.take a).filterMap id).length = (present.take a).count true := by
    rw [length_filterMap_id,List.map_take,h.flags]
  obtain ⟨rest,hrest⟩ := h.stored
  rw [← hrest,← hsplit,← hlen,List.append_assoc,List.drop_left]
  exact List.prefix_append _ _

theorem Scattered.take
    (h : Scattered present stored elements) (n : ℕ) : Scattered (present.take n) stored (elements.take n) := by
  refine ⟨by rw [List.map_take,h.flags],?_⟩
  have hsplit : (elements.take n).filterMap id ++ (elements.drop n).filterMap id = elements.filterMap id := by
    rw [← List.filterMap_append,List.take_append_drop]
  exact (hsplit ▸ List.prefix_append _ _ : (elements.take n).filterMap id <+: elements.filterMap id).trans h.stored

theorem Scattered.eq_of_all
    (h : Scattered present stored elements) (hall : present.count true = present.length) :
    (stored.take elements.length).map some = elements := by
  have hsome : ∀ x ∈ elements, x.isSome := by
    intro x hx
    have := List.count_eq_length.mp hall x.isSome (h.flags ▸ List.mem_map_of_mem hx)
    exact this.symm
  obtain ⟨values,rfl⟩ := exists_map_some hsome
  have hvalues : (values.map some).filterMap id = values := by simp
  obtain ⟨rest,hrest⟩ := h.stored
  rw [hvalues] at hrest
  rw [List.length_map,← hrest,List.take_left]

theorem exists_values_of_forall_isSome (hall : ∀ x ∈ elements, x.isSome)
    (hstored : elements.filterMap id <+: stored) : ∃ values rest, elements = values.map some ∧ stored = values ++ rest := by
  obtain ⟨values,rfl⟩ := exists_map_some hall
  obtain ⟨rest,hrest⟩ := hstored
  refine ⟨values,rest,rfl,?_⟩
  rw [← hrest]
  simp

theorem Scattered.of_slice (h : Scattered present stored elements) (hb : b ≤ elements.length)
    (hall : (slice present a b).count true = b - a) :
    ((stored.drop ((present.take a).count true)).take (b - a)).map some = slice elements a b := by
  have hslice := (h.drop a).take (b - a)
  have hlen : (slice elements a b).length = b - a := length_slice hb
  have hflags : (slice present a b).length = b - a := length_slice (by rw [h.length_eq]; exact hb)
  have heq := hslice.eq_of_all (hall.trans hflags.symm)
  rwa [show ((elements.drop a).take (b - a)).length = b - a from hlen] at heq

end Dodam.Foundation
