import Mathlib.Data.List.Sort
import Mathlib.Logic.Function.DependsOn

/-! # Relations as lists of rows

A relation has columns and a list of rows. Projections, filters, duplicate elimination, sorting
and limits, and which of them change places.
-/
namespace Dodam.Foundation

structure IsRanking {β : Type*} (le : β → β → Bool) : Prop where
  total : ∀ x y, le x y ∨ le y x
  trans : ∀ x y z, le x y → le y z → le x z

theorem IsRanking.comap {β γ : Type*} {le : γ → γ → Bool} (h : IsRanking le) (f : β → γ) :
    IsRanking fun x y => le (f x) (f y) :=
  ⟨fun x y => h.total (f x) (f y),fun x y z => h.trans (f x) (f y) (f z)⟩

universe u

/-- A way of sorting lists: what it does to a list depends on nothing but how the entries compare, and
the entries that a filter keeps are arranged as they would be without the others. -/
structure Arrangement where
  arranged : ∀ {β : Type u}, (β → β → Bool) → List β → List β → Prop
  sorts : ∀ {β : Type u} {le : β → β → Bool} {xs ys : List β}, IsRanking le → arranged le xs ys →
    ys.Perm xs ∧ ys.Pairwise (le · ·)
  nil : ∀ {β : Type u} (le : β → β → Bool), arranged le [] []
  map : ∀ {β γ : Type u} (f : β → γ) (le : γ → γ → Bool) (xs : List β) (zs : List γ),
    arranged le (xs.map f) zs ↔ ∃ ys, arranged (fun x y => le (f x) (f y)) xs ys ∧ ys.map f = zs
  filter : ∀ {β : Type u} {le : β → β → Bool}, IsRanking le → ∀ (p : β → Bool) (xs zs : List β),
    arranged le (xs.filter p) zs ↔ ∃ ys, arranged le xs ys ∧ ys.filter p = zs

section Sorting
variable {β : Type*} {le : β → β → Bool}

theorem orderedInsert_of_forall_le {x : β} {ys : List β} (h : ∀ y ∈ ys, le x y) :
    ys.orderedInsert (le · ·) x = x :: ys := by
  cases ys with
  | nil => rfl
  | cons y ys => exact List.orderedInsert_cons_of_le _ ys (h y (by simp))

theorem filter_orderedInsert (hle : IsRanking le) (p : β → Bool) {x : β} {ys : List β}
    (hys : ys.Pairwise (le · ·)) :
    (ys.orderedInsert (le · ·) x).filter p =
      if p x then (ys.filter p).orderedInsert (le · ·) x else ys.filter p := by
  induction ys with
  | nil => cases hx : p x <;> simp [hx]
  | cons y ys ih =>
    have hrest := List.pairwise_cons.mp hys
    by_cases hxy : le x y
    · have hfirst : ∀ z ∈ (y :: ys).filter p, le x z := by
        intro z hz
        rcases List.mem_cons.mp (List.mem_of_mem_filter hz) with rfl | hz'
        · exact hxy
        · exact hle.trans x y z hxy (hrest.1 z hz')
      rw [List.orderedInsert_cons_of_le _ ys hxy,List.filter_cons,orderedInsert_of_forall_le hfirst]
    · rw [List.orderedInsert_of_not_le _ ys hxy,List.filter_cons,ih hrest.2]
      cases hy : p y <;> cases p x <;> simp [hy,hxy]

theorem pairwise_insertionSort (hle : IsRanking le) (xs : List β) :
    (xs.insertionSort (le · ·)).Pairwise (le · ·) := by
  have : Std.Total (α := β) (le · ·) := ⟨hle.total⟩
  have : IsTrans β (le · ·) := ⟨hle.trans⟩
  exact List.pairwise_insertionSort (le · ·) xs

theorem filter_insertionSort (hle : IsRanking le) (p : β → Bool) (xs : List β) :
    (xs.filter p).insertionSort (le · ·) = (xs.insertionSort (le · ·)).filter p := by
  induction xs with
  | nil => rfl
  | cons x xs ih =>
    rw [List.insertionSort_cons,filter_orderedInsert hle p (pairwise_insertionSort hle xs),List.filter_cons]
    split_ifs
    · rw [List.insertionSort_cons,ih]
    · exact ih

end Sorting

def Arrangement.stable : Arrangement.{u} where
  arranged le xs ys := xs.insertionSort (le · ·) = ys
  sorts := by
    rintro β le xs _ hle rfl
    exact ⟨List.perm_insertionSort _ xs,pairwise_insertionSort hle xs⟩
  nil le := rfl
  map f le xs zs := by
    rw [← List.map_insertionSort (fun x y => le (f x) (f y)) (le · ·) f xs fun _ _ _ _ => Iff.rfl]
    simp
  filter hle p xs zs := by
    rw [filter_insertionSort hle p xs]
    simp

section Duplicates
variable {β : Type*} [BEq β] [LawfulBEq β]

theorem eraseDups_filter (p : β → Bool) (rows : List β) :
    rows.eraseDups.filter p = (rows.filter p).eraseDups := by
  induction h : rows.length using Nat.strong_induction_on generalizing rows with
  | _ n ih =>
    subst h
    cases rows with
    | nil => rfl
    | cons row rows =>
      have hrest := ih (rows.filter fun other => !other == row).length
        (Nat.lt_succ_of_le (List.length_filter_le _ rows)) _ rfl
      rw [List.eraseDups_cons,List.filter_cons,List.filter_cons,hrest]
      split_ifs with hrow
      · rw [List.eraseDups_cons,List.filter_filter,List.filter_filter]
        simp only [Bool.and_comm]
      · rw [List.filter_filter]
        refine congrArg _ (List.filter_congr fun other _ => ?_)
        by_cases hsame : other = row
        · simp [hsame,hrow]
        · simp [hsame]

theorem eraseDups_eraseDups (rows : List β) : rows.eraseDups.eraseDups = rows.eraseDups := by
  induction h : rows.length using Nat.strong_induction_on generalizing rows with
  | _ n ih =>
    subst h
    cases rows with
    | nil => rfl
    | cons row rows =>
      have hrest := ih (rows.filter fun other => !other == row).length
        (Nat.lt_succ_of_le (List.length_filter_le _ rows)) _ rfl
      rw [List.eraseDups_cons,List.eraseDups_cons,eraseDups_filter,List.filter_filter]
      simp only [Bool.and_self,hrest]

end Duplicates

structure Relation (κ α : Type*) where
  columns : List κ
  rows : List (List α)
deriving DecidableEq

namespace Relation
variable {κ : Type*} {α : Type u}

section Cells
variable [DecidableEq κ] [Inhabited α]

def cell (columns : List κ) (row : List α) (column : κ) : α := row.getD (columns.idxOf column) default

def pick (columns output : List κ) (row : List α) : List α := output.map (cell columns row)

def project (output : List κ) (relation : Relation κ α) : Relation κ α :=
  ⟨output,relation.rows.map (pick relation.columns output)⟩

def filter (p : (κ → α) → Bool) (relation : Relation κ α) : Relation κ α :=
  ⟨relation.columns,relation.rows.filter fun row => p (cell relation.columns row)⟩

end Cells

def distinct [DecidableEq α] (relation : Relation κ α) : Relation κ α :=
  ⟨relation.columns,relation.rows.eraseDups⟩

def take (limit : ℕ) (relation : Relation κ α) : Relation κ α := ⟨relation.columns,relation.rows.take limit⟩

theorem take_take (relation : Relation κ α) (m n : ℕ) : (relation.take n).take m = relation.take (min m n) := by
  simp only [take,List.take_take]

theorem distinct_distinct [DecidableEq α] (relation : Relation κ α) : relation.distinct.distinct = relation.distinct := by
  simp only [distinct,eraseDups_eraseDups]

variable [DecidableEq κ] [Inhabited α]

/-- The rows of a relation arranged by an order of their cells. -/
def Sorted (sorting : Arrangement.{u}) (le : (κ → α) → (κ → α) → Bool) (relation sorted : Relation κ α) : Prop :=
  sorted.columns = relation.columns ∧
    sorting.arranged (fun x y => le (cell relation.columns x) (cell relation.columns y)) relation.rows sorted.rows

section Laws
variable {columns output inner : List κ} {relation : Relation κ α} {p q : (κ → α) → Bool}

theorem cell_pick {row : List α} {column : κ} (h : column ∈ output) :
    cell output (pick columns output row) column = cell columns row column := by
  have hindex : output.idxOf column < output.length := List.idxOf_lt_length_of_mem h
  simp [cell,pick,List.getD_eq_getElem?_getD,List.getElem?_eq_getElem hindex]

theorem pick_pick {row : List α} (h : output ⊆ inner) :
    pick inner output (pick columns inner row) = pick columns output row :=
  List.map_congr_left fun _ hcolumn => cell_pick (h hcolumn)

theorem project_project (h : output ⊆ inner) : (relation.project inner).project output = relation.project output := by
  simp only [project,List.map_map,mk.injEq,true_and]
  exact List.map_congr_left fun row _ => pick_pick h

theorem apply_cell_pick {β : Type*} {f : (κ → α) → β} (h : DependsOn f {c | c ∈ output}) (row : List α) :
    f (cell output (pick columns output row)) = f (cell columns row) :=
  h fun _ hcolumn => cell_pick hcolumn

theorem filter_project (h : DependsOn p {c | c ∈ output}) :
    (relation.project output).filter p = (relation.filter p).project output := by
  simp only [filter,project,List.filter_map,mk.injEq,true_and]
  congr 1
  exact List.filter_congr fun row _ => apply_cell_pick h row

theorem filter_filter : (relation.filter p).filter q = relation.filter fun cells => p cells && q cells := by
  simp only [filter,List.filter_filter,Bool.and_comm]

theorem project_take (n : ℕ) : (relation.take n).project output = (relation.project output).take n := by
  simp only [project,take,List.map_take]

theorem filter_distinct [DecidableEq α] : relation.distinct.filter p = (relation.filter p).distinct := by
  simp only [distinct,filter,eraseDups_filter]

end Laws

section Sorting
variable {sorting : Arrangement.{u}} {le : (κ → α) → (κ → α) → Bool} {output : List κ} {relation sorted : Relation κ α}

theorem sorted_project (h : ∀ cells, DependsOn (le cells) {c | c ∈ output} ∧ DependsOn (le · cells) {c | c ∈ output}) :
    Sorted sorting le (relation.project output) sorted ↔
      ∃ inner, Sorted sorting le relation inner ∧ inner.project output = sorted := by
  have hle : (fun x y => le (cell (relation.project output).columns (pick relation.columns output x))
      (cell (relation.project output).columns (pick relation.columns output y))) = fun x y => le (cell relation.columns x) (cell relation.columns y) := by
    funext x y
    change le (cell output _) (cell output _) = _
    rw [apply_cell_pick (h _).1]
    exact apply_cell_pick (f := (le · (cell relation.columns y))) (h _).2 x
  constructor
  · rintro ⟨hcolumns,hrows⟩
    obtain ⟨rows,hsorted,heq⟩ := (sorting.map _ _ _ _).mp hrows
    rw [hle] at hsorted
    exact ⟨⟨relation.columns,rows⟩,⟨rfl,hsorted⟩,by cases sorted; simp_all [project]⟩
  · rintro ⟨inner,⟨hcolumns,hrows⟩,rfl⟩
    refine ⟨rfl,(sorting.map _ _ _ _).mpr ⟨inner.rows,?_,?_⟩⟩
    · exact hle ▸ hrows
    · rw [project,hcolumns]

theorem sorted_filter (hle : IsRanking le) {p : (κ → α) → Bool} :
    Sorted sorting le (relation.filter p) sorted ↔
      ∃ inner, Sorted sorting le relation inner ∧ inner.filter p = sorted := by
  have hfilter := sorting.filter (hle.comap (cell relation.columns)) (fun row => p (cell relation.columns row))
    relation.rows sorted.rows
  constructor
  · rintro ⟨hcolumns,hrows⟩
    obtain ⟨rows,hsorted,heq⟩ := hfilter.mp hrows
    exact ⟨⟨relation.columns,rows⟩,⟨rfl,hsorted⟩,by cases sorted; simp_all [filter]⟩
  · rintro ⟨inner,⟨hcolumns,hrows⟩,rfl⟩
    refine ⟨hcolumns,(sorting.filter (hle.comap (cell relation.columns)) _ _ _).mpr ⟨inner.rows,hrows,?_⟩⟩
    rw [filter,hcolumns]

end Sorting
end Relation
end Dodam.Foundation
