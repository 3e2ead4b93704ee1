import Mathlib.Algebra.BigOperators.Group.List.Basic
import Mathlib.Algebra.Ring.Nat
import Mathlib.Data.List.Chain
import Mathlib.Order.Lattice

/-! # Sums over runs of equal keys

Rows with a key and a value, read in order; neighbours with one key form a run with the sum of
their values.
-/
namespace Dodam.Foundation

variable {κ α : Type*} [DecidableEq κ]

section Runs
variable [Add α]

def pushRow (runs : List (κ × α)) (row : κ × α) : List (κ × α) :=
  match runs with
  | [] => [row]
  | run :: older => if run.1 = row.1 then (run.1,run.2 + row.2) :: older else row :: run :: older

def keyRuns (rows : List (κ × α)) : List (κ × α) := rows.foldl pushRow []

@[simp] theorem pushRow_nil (row : κ × α) : pushRow [] row = [row] := rfl

theorem pushRow_same {run row : κ × α} (h : run.1 = row.1) (older : List (κ × α)) :
    pushRow (run :: older) row = (run.1,run.2 + row.2) :: older :=
  if_pos h

theorem pushRow_ne {run row : κ × α} (h : run.1 ≠ row.1) (older : List (κ × α)) :
    pushRow (run :: older) row = row :: run :: older :=
  if_neg h

theorem exists_pushRow_eq_cons (runs : List (κ × α)) (row : κ × α) :
    ∃ run older, pushRow runs row = run :: older ∧ run.1 = row.1 := by
  cases runs with
  | nil => exact ⟨row,[],rfl,rfl⟩
  | cons run older =>
    by_cases h : run.1 = row.1
    · exact ⟨_,_,pushRow_same h older,h⟩
    · exact ⟨_,_,pushRow_ne h older,rfl⟩

@[simp] theorem keyRuns_nil : keyRuns ([] : List (κ × α)) = [] := rfl

theorem keyRuns_concat (rows : List (κ × α)) (row : κ × α) :
    keyRuns (rows ++ [row]) = pushRow (keyRuns rows) row := by
  rw [keyRuns,List.foldl_append]
  rfl

theorem keyRuns_isChain (rows : List (κ × α)) : (keyRuns rows).IsChain (fun r s => s.1 ≠ r.1) := by
  induction rows using List.reverseRecOn with
  | nil => exact .nil
  | append_singleton rows row ih =>
    rw [keyRuns_concat]
    cases hruns : keyRuns rows with
    | nil => exact .singleton _
    | cons run older =>
      rw [hruns] at ih
      by_cases h : run.1 = row.1
      · rw [pushRow_same h]
        exact List.isChain_cons.mpr (List.isChain_cons.mp ih)
      · rw [pushRow_ne h]
        exact .cons_cons h ih

theorem exists_row_of_mem_keyRuns {rows : List (κ × α)} :
    ∀ run ∈ keyRuns rows, ∃ row ∈ rows, row.1 = run.1 := by
  induction rows using List.reverseRecOn with
  | nil => simp
  | append_singleton rows row ih =>
    have hold : ∀ run ∈ keyRuns rows, ∃ r ∈ rows ++ [row], r.1 = run.1 := by
      intro run hrun
      obtain ⟨r,hr,hkey⟩ := ih run hrun
      exact ⟨r,List.mem_append_left _ hr,hkey⟩
    rw [keyRuns_concat]
    cases hruns : keyRuns rows with
    | nil => simp
    | cons run older =>
      rw [hruns] at hold
      by_cases hkey : run.1 = row.1
      · rw [pushRow_same hkey]
        rw [List.forall_mem_cons] at hold
        exact List.forall_mem_cons.mpr hold
      · rw [pushRow_ne hkey]
        exact List.forall_mem_cons.mpr ⟨⟨row,by simp,rfl⟩,hold⟩

theorem exists_run_of_mem {rows : List (κ × α)} : ∀ row ∈ rows, ∃ run ∈ keyRuns rows, run.1 = row.1 := by
  induction rows using List.reverseRecOn with
  | nil => simp
  | append_singleton rows row ih =>
    rw [keyRuns_concat]
    obtain ⟨newest,older,hpush,hkey⟩ := exists_pushRow_eq_cons (keyRuns rows) row
    have hkept : ∀ run ∈ keyRuns rows, ∃ run' ∈ pushRow (keyRuns rows) row, run'.1 = run.1 := by
      cases keyRuns rows with
      | nil => simp
      | cons run older =>
        by_cases hsame : run.1 = row.1
        · rw [pushRow_same hsame]
          exact List.forall_mem_cons.mpr ⟨⟨_,List.mem_cons_self,rfl⟩,
            fun r hr => ⟨r,List.mem_cons_of_mem _ hr,rfl⟩⟩
        · rw [pushRow_ne hsame]
          exact fun r hr => ⟨r,List.mem_cons_of_mem _ hr,rfl⟩
    intro r hr
    rcases List.mem_append.mp hr with hr | hr
    · obtain ⟨run,hrun,hrunkey⟩ := ih r hr
      obtain ⟨run',hrun',hkey'⟩ := hkept run hrun
      exact ⟨run',hrun',hkey'.trans hrunkey⟩
    · rw [List.mem_singleton.mp hr]
      exact ⟨newest,by rw [hpush]; simp,hkey⟩

end Runs

theorem foldl_pushRow_keyRuns [AddSemigroup α] (runs rows : List (κ × α)) :
    (keyRuns rows).reverse.foldl pushRow runs = rows.foldl pushRow runs := by
  induction rows using List.reverseRecOn with
  | nil => rfl
  | append_singleton rows row ih =>
    rw [keyRuns_concat,List.foldl_append,← ih]
    cases keyRuns rows with
    | nil => rfl
    | cons run older =>
      by_cases h : run.1 = row.1
      · -- the row joins the newest run either way
        rw [pushRow_same h,List.reverse_cons,List.reverse_cons,List.foldl_append,List.foldl_append]
        simp only [List.foldl_cons,List.foldl_nil]
        cases older.reverse.foldl pushRow runs with
        | nil => rw [pushRow_nil,pushRow_nil,pushRow_same h]
        | cons last rest =>
          by_cases hlast : last.1 = run.1
          · rw [pushRow_same (show last.1 = (run.1,run.2 + row.2).1 from hlast),pushRow_same hlast,
              pushRow_same (show (last.1,last.2 + run.2).1 = row.1 from hlast.trans h),add_assoc]
          · rw [pushRow_ne (show last.1 ≠ (run.1,run.2 + row.2).1 from hlast),pushRow_ne hlast,
              pushRow_same h]
      · rw [pushRow_ne h,List.reverse_cons,List.foldl_append]

theorem keyRuns_append [AddSemigroup α] (rows rows' : List (κ × α)) :
    keyRuns (rows ++ rows') = (keyRuns rows').reverse.foldl pushRow (keyRuns rows) := by
  rw [foldl_pushRow_keyRuns,keyRuns,List.foldl_append]
  rfl

theorem foldl_pushRow_of_isChain [Add α] {runs new : List (κ × α)} {run : κ × α}
    (h : (run :: new).IsChain (fun r s => r.1 ≠ s.1)) :
    new.foldl pushRow (run :: runs) = new.reverse ++ run :: runs := by
  induction new generalizing run runs with
  | nil => rfl
  | cons next new ih =>
    obtain ⟨hne,hnew⟩ := List.isChain_cons_cons.mp h
    rw [List.foldl_cons,pushRow_ne hne,ih hnew,List.reverse_cons,List.append_assoc]
    rfl

theorem sum_le_and_eq_iff {α : Type*} {f g : α → ℕ} {l : List α} (h : ∀ a ∈ l, f a ≤ g a) :
    (l.map f).sum ≤ (l.map g).sum ∧ ((l.map f).sum = (l.map g).sum ↔ ∀ a ∈ l, f a = g a) := by
  induction l with
  | nil => simp
  | cons a l ih =>
    have hhead := h a (List.mem_cons_self ..)
    obtain ⟨hle,heq⟩ := ih fun b hb => h b (List.mem_cons_of_mem _ hb)
    rw [List.map_cons,List.map_cons,List.sum_cons,List.sum_cons]
    refine ⟨by omega,?_⟩
    constructor
    · intro hsum b hb
      rcases List.mem_cons.mp hb with rfl | hb
      · omega
      · exact heq.mp (by omega) b hb
    · intro hall
      rw [hall a (List.mem_cons_self ..),heq.mpr fun b hb => hall b (List.mem_cons_of_mem _ hb)]

section Totals
variable [AddCommMonoid α]

def keyTotal (key : κ) (rows : List (κ × α)) : α := ((rows.filter (·.1 = key)).map Prod.snd).sum

theorem keyTotal_cons (key : κ) (row : κ × α) (rows : List (κ × α)) :
    keyTotal key (row :: rows) = (if row.1 = key then row.2 else 0) + keyTotal key rows := by
  unfold keyTotal
  by_cases h : row.1 = key
  · rw [List.filter_cons_of_pos (by simpa using h),if_pos h,List.map_cons,List.sum_cons]
  · rw [List.filter_cons_of_neg (by simpa using h),if_neg h,zero_add]

theorem keyTotal_append (key : κ) (rows rows' : List (κ × α)) :
    keyTotal key (rows ++ rows') = keyTotal key rows + keyTotal key rows' := by
  simp [keyTotal]

theorem keyTotal_keyRuns (key : κ) (rows : List (κ × α)) : keyTotal key (keyRuns rows) = keyTotal key rows := by
  induction rows using List.reverseRecOn with
  | nil => rfl
  | append_singleton rows row ih =>
    rw [keyRuns_concat,keyTotal_append,← ih]
    cases keyRuns rows with
    | nil => exact (zero_add _).symm
    | cons run older =>
      by_cases h : run.1 = row.1
      · rw [pushRow_same h,keyTotal_cons,keyTotal_cons,keyTotal_cons,h]
        by_cases hkey : row.1 = key
        · simp only [if_pos hkey]
          rw [show keyTotal key ([] : List (κ × α)) = 0 from rfl,add_zero]
          exact add_right_comm ..
        · simp only [if_neg hkey]
          rw [show keyTotal key ([] : List (κ × α)) = 0 from rfl,add_zero,add_zero]
      · rw [pushRow_ne h,keyTotal_cons,add_comm]
        congr 1
        rw [keyTotal_cons,show keyTotal key ([] : List (κ × α)) = 0 from rfl,add_zero]

end Totals

theorem keyRuns_pairwise [LinearOrder κ] [Add α] {rows : List (κ × α)}
    (h : rows.Pairwise (fun r s => r.1 ≤ s.1)) : (keyRuns rows).Pairwise (fun r s => s.1 < r.1) := by
  induction rows using List.reverseRecOn with
  | nil => exact .nil
  | append_singleton rows row ih =>
    rw [List.pairwise_append] at h
    obtain ⟨hrows,-,hlast⟩ := h
    have hpair := ih hrows
    have hle : ∀ run ∈ keyRuns rows, run.1 ≤ row.1 := by
      intro run hrun
      obtain ⟨r,hr,hkey⟩ := exists_row_of_mem_keyRuns run hrun
      exact hkey ▸ hlast r hr row (List.mem_singleton_self row)
    rw [keyRuns_concat]
    cases hruns : keyRuns rows with
    | nil => exact List.pairwise_singleton _ _
    | cons run older =>
      rw [hruns] at hpair hle
      rw [List.pairwise_cons] at hpair
      by_cases hkey : run.1 = row.1
      · rw [pushRow_same hkey]
        exact List.pairwise_cons.mpr hpair
      · rw [pushRow_ne hkey]
        have hlt : run.1 < row.1 := lt_of_le_of_ne (hle run List.mem_cons_self) hkey
        exact List.pairwise_cons.mpr
          ⟨List.forall_mem_cons.mpr ⟨hlt,fun s hs => (hpair.1 s hs).trans hlt⟩,List.pairwise_cons.mpr hpair⟩

theorem keyTotal_of_pairwise [LinearOrder κ] [AddCommMonoid α] {runs : List (κ × α)}
    (h : runs.Pairwise (fun r s => s.1 < r.1)) {run : κ × α} (hmem : run ∈ runs) :
    keyTotal run.1 runs = run.2 := by
  induction runs with
  | nil => cases hmem
  | cons newest older ih =>
    obtain ⟨hlt,hpair⟩ := List.pairwise_cons.mp h
    rw [keyTotal_cons]
    rcases List.mem_cons.mp hmem with rfl | hold
    · have hnone : older.filter (·.1 = run.1) = [] := by
        rw [List.filter_eq_nil_iff]
        intro s hs hdec
        exact (hlt s hs).ne (of_decide_eq_true hdec)
      rw [if_pos rfl,keyTotal,hnone]
      exact add_zero _
    · rw [if_neg (hlt run hold).ne',zero_add,ih hpair hold]

end Dodam.Foundation
