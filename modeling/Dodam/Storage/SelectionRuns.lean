import Dodam.Foundation.Runs

/-! # The builder of selection runs

Runs of selected rows are pushed at the end of a list; one that starts where the
last one stops lengthens it. While rows are looked at, the run they may still
lengthen is kept open.
-/
namespace Dodam.Storage
open Foundation

structure SelectionRunsBuilder where
  selectedRows : ℕ := 0

/-- The list of runs next to the builder that counts its rows. -/
structure SelectedRuns where
  runs : List (ℕ × ℕ) := []
  builder : SelectionRunsBuilder := {}

namespace SelectedRuns

def pushRun (s : SelectedRuns) (start len : ℕ) : SelectedRuns :=
  if len = 0 then s
  else
    { builder := { selectedRows := s.builder.selectedRows + len }
      runs := match s.runs.getLast? with
        | some (previousStart,previousLen) =>
          if previousStart + previousLen = start then s.runs.dropLast ++ [(previousStart,previousLen + len)]
          else s.runs ++ [(start,len)]
        | none => s.runs ++ [(start,len)] }

def pushRuns (s : SelectedRuns) (runs : List (ℕ × ℕ)) : SelectedRuns := runs.foldl (fun s r => s.pushRun r.1 r.2) s

def pushRows (s : SelectedRuns) (rows : List ℕ) : SelectedRuns := rows.foldl (fun s row => s.pushRun row 1) s

variable (s : SelectedRuns)

@[simp] theorem pushRun_zero (start : ℕ) : s.pushRun start 0 = s := rfl

theorem pushRows_append (rows rows' : List ℕ) : s.pushRows (rows ++ rows') = (s.pushRows rows).pushRows rows' :=
  List.foldl_append

theorem pushRuns_concat (runs : List (ℕ × ℕ)) (r : ℕ × ℕ) :
    s.pushRuns (runs ++ [r]) = (s.pushRuns runs).pushRun r.1 r.2 :=
  List.foldl_concat ..

theorem pushRun_add (start n m : ℕ) : s.pushRun start (n + m) = (s.pushRun start n).pushRun (start + n) m := by
  rcases Nat.eq_zero_or_pos n with rfl | hn
  · rw [Nat.zero_add,pushRun_zero,Nat.add_zero]
  rcases Nat.eq_zero_or_pos m with rfl | hm
  · rw [Nat.add_zero,pushRun_zero]
  rw [pushRun,pushRun,pushRun,if_neg (by omega),if_neg (by omega),if_neg (by omega)]
  -- what the first piece leaves at the end is lengthened by the second
  cases hlast : s.runs.getLast? with
  | none => simp [Nat.add_assoc]
  | some last =>
    obtain ⟨start',len'⟩ := last
    by_cases hstart : start' + len' = start
    · have hnext : start' + (len' + n) = start + n := by omega
      simp [hstart,hnext,Nat.add_assoc]
    · simp [hstart,Nat.add_assoc]

theorem pushRun_eq_pushRows (start n : ℕ) : s.pushRun start n = s.pushRows (List.range' start n) := by
  induction n with
  | zero => rfl
  | succ n ih => rw [pushRun_add,ih,List.range'_1_concat,pushRows_append]; rfl

theorem selectedRows_pushRows (rows : List ℕ) :
    (s.pushRows rows).builder.selectedRows = s.builder.selectedRows + rows.length := by
  induction rows generalizing s with
  | nil => rfl
  | cons row rows ih =>
    have hstep : (s.pushRun row 1).builder.selectedRows = s.builder.selectedRows + 1 := rfl
    rw [List.length_cons,pushRows,List.foldl_cons]
    refine (ih _).trans ?_
    rw [hstep]
    omega

theorem exists_maximalRuns {rows : List ℕ} (h : rows.Pairwise (· < ·)) :
    ∃ runs, MaximalRuns (· ∈ rows) runs ∧ ∀ s : SelectedRuns, s.pushRows rows = s.pushRuns runs := by
  induction rows using List.reverseRecOn with
  | nil => exact ⟨[],maximalRuns_nil fun _ => List.not_mem_nil,fun _ => rfl⟩
  | append_singleton rows row ih =>
    obtain ⟨hrows,-,hrow⟩ := List.pairwise_append.mp h
    obtain ⟨runs,hmax,heq⟩ := ih hrows
    have hlt : ∀ i, i ∈ rows → i < row := fun i hi => hrow i hi row (List.mem_singleton_self _)
    have hmem : ∀ i, i ∈ rows ++ [row] ↔ i ∈ rows ∨ i = row := fun i => by rw [List.mem_append,List.mem_singleton]
    have hpush : ∀ s : SelectedRuns, s.pushRows (rows ++ [row]) = (s.pushRuns runs).pushRun row 1 := fun s => by
      rw [pushRows_append,heq]
      rfl
    rcases List.eq_nil_or_concat runs with rfl | ⟨before,last,rfl⟩
    · exact ⟨[(row,1)],hmax.next (by simp) hmem,hpush⟩
    rw [List.concat_eq_append] at hmax hpush
    by_cases htouch : last.1 + last.2 = row
    · -- the row lengthens the last run
      refine ⟨before ++ [(last.1,last.2 + 1)],hmax.grow (by simpa only [htouch] using hmem),fun s => ?_⟩
      rw [hpush,pushRuns_concat,pushRuns_concat,pushRun_add,htouch]
    · refine ⟨before ++ [last] ++ [(row,1)],hmax.next (fun r hr => ?_) hmem,fun s => ?_⟩
      · have hstop := hmax.stop_le hlt hr
        rcases List.mem_append.mp hr with hr | hr
        · have hbefore := (List.pairwise_append.mp hmax.apart).2.2 r hr last (List.mem_singleton_self _)
          have := hmax.stop_le hlt (List.mem_append_right _ (List.mem_singleton_self last))
          omega
        · rw [List.mem_singleton.mp hr] at hstop ⊢
          omega
      · rw [hpush,pushRuns_concat s (before ++ [last])]

end SelectedRuns

/-- The rows looked at: the runs that are closed and the one that is open. -/
structure PendingRuns where
  out : SelectedRuns
  start : Option ℕ := none
  len : ℕ := 0

namespace PendingRuns

/-- A row that is not selected closes the open run. -/
def close (p : PendingRuns) : PendingRuns :=
  match p.start with
  | some start => { out := p.out.pushRun start p.len }
  | none => p

def select (p : PendingRuns) (row len : ℕ) : PendingRuns :=
  match p.start with
  | some _ => { p with len := p.len + len }
  | none => { p with start := some row, len := len }

/-- Some rows before `next` are selected; the open run reaches up to `next`. -/
structure After (initial : SelectedRuns) (rows : List ℕ) (next : ℕ) (p : PendingRuns) : Prop where
  closed : p.close.out = initial.pushRows rows
  touches : ∀ start, p.start = some start → start + p.len = next

variable {initial : SelectedRuns} {rows : List ℕ} {next : ℕ} {p : PendingRuns}

theorem after_start (initial : SelectedRuns) (next : ℕ) : After initial [] next { out := initial } := ⟨rfl,nofun⟩

theorem start_close (p : PendingRuns) : p.close.start = none := by
  rw [close]
  cases hstart : p.start with
  | some start => rfl
  | none => exact hstart

theorem close_of_start_none (h : p.start = none) : p.close = p := by rw [close,h]

theorem After.close (h : After initial rows next p) (next' : ℕ) : After initial rows next' p.close := by
  refine ⟨?_,fun start hstart => ?_⟩
  · rw [close_of_start_none p.start_close,h.closed]
  · rw [p.start_close] at hstart
    cases hstart

theorem After.select (h : After initial rows next p) (len : ℕ) :
    After initial (rows ++ List.range' next len) (next + len) (p.select next len) := by
  have hclosed := h.closed
  rw [PendingRuns.close] at hclosed
  rw [PendingRuns.select]
  cases hstart : p.start with
  | some start =>
    rw [hstart] at hclosed
    have htouch := h.touches start hstart
    refine ⟨?_,fun start' hstart' => ?_⟩
    · rw [SelectedRuns.pushRows_append,← hclosed,← SelectedRuns.pushRun_eq_pushRows,← htouch]
      exact p.out.pushRun_add start p.len len
    · cases hstart'
      show start + (p.len + len) = next + len
      omega
  | none =>
    rw [hstart] at hclosed
    refine ⟨?_,fun start' hstart' => ?_⟩
    · rw [SelectedRuns.pushRows_append,← hclosed,← SelectedRuns.pushRun_eq_pushRows]
      rfl
    · cases hstart'
      rfl

end PendingRuns
end Dodam.Storage
