import Dodam.Storage.PageRuns
import Dodam.Storage.SelectedMask
import Dodam.Foundation.Selection

/-! # The ids of a dictionary page

What a page body means: its first byte is the bit width, and its runs hold an id of the
dictionary for each row that has a value.
-/
namespace Dodam.Storage
open Foundation Execution

section Runs

/-- The ids of a run that are looked at belong to the dictionary; an empty run has an id as well. -/
def PageRun.known (dictionaryLen n : ℕ) : PageRun → Bool
  | .repeated _ id => id < dictionaryLen
  | .packed ids => (ids.take n).all (· < dictionaryLen)

/-- The first ids of the runs, if there are so many of them in the dictionary. -/
def firstIds (dictionaryLen : ℕ) : List PageRun → ℕ → Option (List ℕ)
  | _, 0 => some []
  | [], _ + 1 => none
  | run :: runs, n + 1 =>
    if run.known dictionaryLen (n + 1) then
      (firstIds dictionaryLen runs (n + 1 - run.ids.length)).map (run.ids.take (n + 1) ++ ·)
    else none

variable {dictionaryLen n : ℕ} {runs : List PageRun} {ids : List ℕ}

@[simp] theorem firstIds_zero (dictionaryLen : ℕ) (runs : List PageRun) : firstIds dictionaryLen runs 0 = some [] := by
  cases runs <;> rfl

theorem length_firstIds (h : firstIds dictionaryLen runs n = some ids) : ids.length = n := by
  induction runs generalizing n ids with
  | nil =>
    cases n with
    | zero =>
      cases h
      rfl
    | succ n => cases h
  | cons run runs ih =>
    cases n with
    | zero =>
      cases h
      rfl
    | succ n =>
      rw [firstIds] at h
      split_ifs at h
      obtain ⟨rest,hrest,rfl⟩ := Option.map_eq_some_iff.mp h
      rw [List.length_append,List.length_take,ih hrest]
      omega

theorem firstIds_initial (h : firstIds dictionaryLen runs n = some ids) : ids <+: runs.flatMap PageRun.ids := by
  induction runs generalizing n ids with
  | nil =>
    cases n with
    | zero =>
      cases h
      exact List.nil_prefix
    | succ n => cases h
  | cons run runs ih =>
    cases n with
    | zero =>
      cases h
      exact List.nil_prefix
    | succ n =>
      rw [firstIds] at h
      split_ifs at h
      obtain ⟨rest,hrest,rfl⟩ := Option.map_eq_some_iff.mp h
      rw [List.flatMap_cons]
      rcases Nat.le_total (n + 1) run.ids.length with hle | hle
      · rw [show n + 1 - run.ids.length = 0 by omega,firstIds_zero] at hrest
        cases hrest
        rw [List.append_nil]
        exact (List.take_prefix _ _).trans (List.prefix_append _ _)
      · rw [List.take_of_length_le hle]
        exact (List.prefix_append_right_inj _).mpr (ih hrest)

theorem PageRun.lt_of_known {run : PageRun} (h : run.known dictionaryLen n = true) {id : ℕ} (hid : id ∈ run.ids.take n) :
    id < dictionaryLen := by
  cases run with
  | repeated len id' =>
    have heq := List.eq_of_mem_replicate (List.mem_of_mem_take hid)
    rw [heq]
    simpa [PageRun.known] using h
  | packed ids =>
    rw [PageRun.known,List.all_eq_true] at h
    simpa using h id hid

theorem lt_of_firstIds (h : firstIds dictionaryLen runs n = some ids) {id : ℕ} (hid : id ∈ ids) : id < dictionaryLen := by
  induction runs generalizing n ids with
  | nil =>
    cases n with
    | zero =>
      cases h
      cases hid
    | succ n => cases h
  | cons run runs ih =>
    cases n with
    | zero =>
      cases h
      cases hid
    | succ n =>
      rw [firstIds] at h
      split_ifs at h with hknown
      obtain ⟨rest,hrest,rfl⟩ := Option.map_eq_some_iff.mp h
      rcases List.mem_append.mp hid with hid | hid
      · exact PageRun.lt_of_known hknown hid
      · exact ih hrest hid

theorem firstIds_eq (hpos : ∀ len id, PageRun.repeated len id ∈ runs → 0 < len)
    (hn : n ≤ (runs.flatMap PageRun.ids).length) (hids : ∀ id ∈ (runs.flatMap PageRun.ids).take n, id < dictionaryLen) :
    firstIds dictionaryLen runs n = some ((runs.flatMap PageRun.ids).take n) := by
  induction runs generalizing n with
  | nil =>
    obtain rfl := Nat.le_zero.mp hn
    rfl
  | cons run runs ih =>
    cases n with
    | zero => rfl
    | succ n =>
      rw [List.flatMap_cons,List.take_append] at hids ⊢
      rw [List.flatMap_cons,List.length_append] at hn
      have hknown : run.known dictionaryLen (n + 1) = true := by
        cases run with
        | repeated len id =>
          refine decide_eq_true (hids id (List.mem_append_left _ ?_))
          have hlen := hpos len id List.mem_cons_self
          rw [PageRun.ids,List.take_replicate]
          exact List.mem_replicate.mpr ⟨by omega,rfl⟩
        | packed ids =>
          rw [PageRun.known,List.all_eq_true]
          exact fun id hid => decide_eq_true (hids id (List.mem_append_left _ hid))
      rw [firstIds,if_pos hknown,ih (fun len id hmem => hpos len id (List.mem_cons_of_mem _ hmem)) (by omega)
        fun id hid => hids id (List.mem_append_right _ hid),Option.map_some]

end Runs

section Rows

/-- The rows that have a value; levels below the maximum stand for NULL. -/
def presentRows (defLevels : Option (List ℤ × ℤ)) (rows : ℕ) : List Bool :=
  match defLevels with
  | none => List.replicate rows true
  | some (levels,maxLevel) => (levels.take rows).map (· == maxLevel)

def rowIds {α : Type} : List Bool → List α → List (Option α)
  | [], _ => []
  | false :: present, ids => none :: rowIds present ids
  | true :: present, ids => ids.head? :: rowIds present ids.tail

section RowIds
variable {α : Type}

theorem rowIds_drop (present : List Bool) (ids : List α) (a : ℕ) :
    (rowIds present ids).drop a = rowIds (present.drop a) (ids.drop ((present.take a).count true)) := by
  induction a generalizing present ids with
  | zero => simp
  | succ a ih =>
    cases present with
    | nil => rfl
    | cons flag present =>
      cases flag with
      | true =>
        rw [List.take_succ_cons,List.count_cons_self,List.drop_succ_cons]
        refine (ih present ids.tail).trans ?_
        rw [List.drop_tail]
      | false =>
        rw [List.take_succ_cons,List.count_cons_of_ne Bool.false_ne_true,List.drop_succ_cons]
        exact ih present ids

theorem rowIds_take (present : List Bool) (ids : List α) (n : ℕ) :
    (rowIds present ids).take n = rowIds (present.take n) ids := by
  induction n generalizing present ids with
  | zero => rfl
  | succ n ih =>
    cases present with
    | nil => rfl
    | cons flag present =>
      cases flag with
      | true => exact congrArg (ids.head? :: ·) (ih present ids.tail)
      | false => exact congrArg (none :: ·) (ih present ids)

theorem rowIds_slice (present : List Bool) (ids : List α) (a b : ℕ) :
    slice (rowIds present ids) a b = rowIds (slice present a b) (ids.drop ((present.take a).count true)) := by
  rw [slice,rowIds_drop,rowIds_take,slice]

theorem rowIds_take_count (present : List Bool) (ids : List α) :
    rowIds present (ids.take (present.count true)) = rowIds present ids := by
  induction present generalizing ids with
  | nil => rfl
  | cons flag present ih =>
    cases flag with
    | true =>
      rw [List.count_cons_self]
      cases ids with
      | nil => rw [List.take_nil]
      | cons id ids => exact congrArg (some id :: ·) (ih ids)
    | false =>
      rw [List.count_cons_of_ne Bool.false_ne_true]
      exact congrArg (none :: ·) (ih ids)

theorem length_rowIds (present : List Bool) (ids : List α) : (rowIds present ids).length = present.length := by
  induction present generalizing ids with
  | nil => rfl
  | cons flag present ih =>
    cases flag with
    | true => exact congrArg (· + 1) (ih ids.tail)
    | false => exact congrArg (· + 1) (ih ids)

theorem rowIds_map {β : Type} (f : α → β) (present : List Bool) (ids : List α) :
    rowIds present (ids.map f) = (rowIds present ids).map (Option.map f) := by
  induction present generalizing ids with
  | nil => rfl
  | cons flag present ih =>
    cases flag with
    | true =>
      rw [rowIds,rowIds,List.head?_map,← List.map_tail,ih,List.map_cons]
    | false => exact congrArg (none :: ·) (ih ids)

theorem rowIds_replicate (ids : List α) : rowIds (List.replicate ids.length true) ids = ids.map some := by
  induction ids with
  | nil => rfl
  | cons id ids ih => exact congrArg (some id :: ·) ih

end RowIds

def selectedFlags (selected present : List Bool) (ids : List ℕ) : List Bool :=
  (rowIds present ids).map fun id => id.elim false (flagAt selected)

theorem selectedFlags_replicate (selected : List Bool) (ids : List ℕ) :
    selectedFlags selected (List.replicate ids.length true) ids = ids.map (flagAt selected) := by
  rw [selectedFlags,rowIds_replicate,List.map_map]
  rfl

/-- A body of so many values, with ids of the dictionary for the rows that have one. -/
structure PageDecodes (data : List UInt8) (values dictionaryLen : ℕ) (defLevels : Option (List ℤ × ℤ)) (rows : ℕ)
    (ids : List ℕ) : Prop where
  levels : (presentRows defLevels rows).length = rows
  count : (presentRows defLevels rows).count true = values
  body : ids.length = values ∧ (values = 0 ∨ ∃ w body, data = w :: body ∧ w.toNat ≤ 32 ∧
    firstIds dictionaryLen (pageRuns w.toNat body).1 values = some ids)

end Rows

end Dodam.Storage
