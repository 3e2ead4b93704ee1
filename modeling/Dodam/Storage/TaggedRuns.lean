import Mathlib.Data.List.Sort
import Dodam.Storage.SelectionRuns

/-! # Staged selection

A stage looks at the rows that the stage before selected, counts them by their
offset, and keeps those for which its predicate gives a tag.
-/
namespace Dodam.Storage
open Foundation

variable {Tag Tag' : Type}

/-- The cursor of a stage: the next offset, the run that is open and the tags so far. -/
structure TaggedSelection (Tag : Type) where
  valueOffset : ℕ := 0
  pending : PendingRuns
  tags : List Tag

def TaggedSelection.look (s : TaggedSelection Tag) (row : ℕ) : Option Tag → TaggedSelection Tag
  | some tag => ⟨s.valueOffset + 1,s.pending.select row 1,s.tags ++ [tag]⟩
  | none => ⟨s.valueOffset + 1,s.pending.close,s.tags⟩

section Stage
variable (sourceValueCount : ℕ) (predicate : ℕ → Option Tag)

/-- The rows of one run; a row behind the last value ends the stage. -/
def tagRows : List ℕ → TaggedSelection Tag → Option (TaggedSelection Tag)
  | [], s => some s
  | row :: rows, s =>
    if sourceValueCount ≤ s.valueOffset then none else tagRows rows (s.look row (predicate s.valueOffset))

/-- No run stays open from one source run to the next. -/
def tagRun (s : TaggedSelection Tag) (run : ℕ × ℕ) : Option (TaggedSelection Tag) :=
  (tagRows sourceValueCount predicate (List.range' run.1 run.2) s).map fun s => { s with pending := s.pending.close }

/-- Where the answer is `false` the caller drops the outputs. -/
def buildTaggedSelectionRuns (sourceRuns : List (ℕ × ℕ)) (output : SelectedRuns) (outputTags : List Tag) :
    Option (SelectedRuns × List Tag) :=
  (sourceRuns.foldlM (tagRun sourceValueCount predicate) { pending := { out := output }, tags := outputTags }).bind fun s =>
    if s.valueOffset = sourceValueCount ∧ s.tags.length = s.pending.out.builder.selectedRows then some (s.pending.out,s.tags)
    else none

end Stage

def rowsIn (runs : List (ℕ × ℕ)) : List ℕ := runs.flatMap fun run => List.range' run.1 run.2

def taggedRows (predicate : ℕ → Option Tag) (rows : List ℕ) : List (ℕ × Tag) :=
  rows.zipIdx.filterMap fun row => (predicate row.2).map (row.1,·)

/-- Both predicates at once: the second one counts the rows that the first one keeps. -/
def conjunction (first : ℕ → Option Tag) (second : ℕ → Option Tag') (offset : ℕ) : Option Tag' :=
  (first offset).bind fun _ => second ((List.range offset).countP fun i => (first i).isSome)

section Rows
variable (predicate : ℕ → Option Tag) (rows : List ℕ)

theorem taggedRows_concat (row : ℕ) :
    taggedRows predicate (rows ++ [row]) = taggedRows predicate rows ++ ((predicate rows.length).map (row,·)).toList := by
  cases h : predicate rows.length with
  | none => simp [taggedRows,List.zipIdx_append,h]
  | some tag => simp [taggedRows,List.zipIdx_append,h]

theorem length_taggedRows : (taggedRows predicate rows).length = (List.range rows.length).countP fun i => (predicate i).isSome := by
  induction rows using List.reverseRecOn with
  | nil => rfl
  | append_singleton rows row ih =>
    rw [taggedRows_concat,List.length_append,List.length_append,List.length_singleton,List.range_succ,ih]
    cases h : predicate rows.length <;> simp [h]

theorem map_fst_taggedRows_sublist : ((taggedRows predicate rows).map Prod.fst).Sublist rows := by
  induction rows using List.reverseRecOn with
  | nil => exact List.Sublist.slnil
  | append_singleton rows row ih =>
    rw [taggedRows_concat,List.map_append]
    refine ih.append ?_
    cases predicate rows.length <;> simp

theorem taggedRows_conjunction (second : ℕ → Option Tag') :
    taggedRows second ((taggedRows predicate rows).map Prod.fst) = taggedRows (conjunction predicate second) rows := by
  induction rows using List.reverseRecOn with
  | nil => rfl
  | append_singleton rows row ih =>
    rw [taggedRows_concat,taggedRows_concat,List.map_append,← ih,conjunction,← length_taggedRows]
    cases h : predicate rows.length with
    | none => simp
    | some tag => simp [taggedRows_concat]

end Rows

/-- Where a stage stands behind some rows. -/
structure Looked (predicate : ℕ → Option Tag) (rows : List ℕ) (next : ℕ) (s : TaggedSelection Tag) : Prop where
  valueOffset : s.valueOffset = rows.length
  after : s.pending.After {} ((taggedRows predicate rows).map Prod.fst) next
  tags : s.tags = (taggedRows predicate rows).map Prod.snd

variable {predicate : ℕ → Option Tag} {sourceValueCount next : ℕ} {rows : List ℕ} {s : TaggedSelection Tag}

theorem Looked.look (h : Looked predicate rows next s) :
    Looked predicate (rows ++ [next]) (next + 1) (s.look next (predicate s.valueOffset)) := by
  obtain ⟨hoffset,hafter,htags⟩ := h
  rw [hoffset]
  cases htag : predicate rows.length with
  | none =>
    exact ⟨by simp [TaggedSelection.look,hoffset],by simpa [TaggedSelection.look,taggedRows_concat,htag] using hafter.close (next + 1),
      by simp [TaggedSelection.look,taggedRows_concat,htag,htags]⟩
  | some tag =>
    exact ⟨by simp [TaggedSelection.look,hoffset],by simpa [TaggedSelection.look,taggedRows_concat,htag] using hafter.select 1,
      by simp [TaggedSelection.look,taggedRows_concat,htag,htags]⟩

theorem tagRows_looked (hs : Looked predicate rows next s) (n : ℕ) (hn : rows.length + n ≤ sourceValueCount) :
    ∃ t, tagRows sourceValueCount predicate (List.range' next n) s = some t ∧
      Looked predicate (rows ++ List.range' next n) (next + n) t := by
  induction n generalizing rows next s with
  | zero => exact ⟨s,rfl,by simpa using hs⟩
  | succ n ih =>
    obtain ⟨t,hread,ht⟩ := ih hs.look (by simp; omega)
    rw [List.range'_succ,tagRows,if_neg (by rw [hs.valueOffset]; omega)]
    exact ⟨t,hread,by simpa [Nat.add_assoc,Nat.add_comm 1] using ht⟩

theorem tagRuns_looked (sourceRuns : List (ℕ × ℕ)) (hs : ∀ next, Looked predicate rows next s)
    (hcount : (rows ++ rowsIn sourceRuns).length ≤ sourceValueCount) :
    ∃ t, sourceRuns.foldlM (tagRun sourceValueCount predicate) s = some t ∧ ∀ next, Looked predicate (rows ++ rowsIn sourceRuns) next t := by
  induction sourceRuns generalizing rows s with
  | nil => exact ⟨s,rfl,by simpa [rowsIn] using hs⟩
  | cons run sourceRuns ih =>
    have hrows : rows ++ rowsIn (run :: sourceRuns) = rows ++ List.range' run.1 run.2 ++ rowsIn sourceRuns := by simp [rowsIn]
    rw [hrows] at hcount ⊢
    have hfit : rows.length + run.2 ≤ sourceValueCount := by
      simp at hcount
      omega
    obtain ⟨t,hread,ht⟩ := tagRows_looked (hs run.1) run.2 hfit
    rw [List.foldlM_cons,tagRun,hread]
    -- the open run is closed, so the next one may start anywhere
    exact ih (s := { t with pending := t.pending.close }) (fun next => ⟨ht.valueOffset,ht.after.close next,ht.tags⟩) hcount

theorem buildTaggedSelectionRuns_eq (predicate : ℕ → Option Tag) (sourceRuns : List (ℕ × ℕ)) :
    buildTaggedSelectionRuns (rowsIn sourceRuns).length predicate sourceRuns {} [] =
      some (({} : SelectedRuns).pushRows ((taggedRows predicate (rowsIn sourceRuns)).map Prod.fst),
        (taggedRows predicate (rowsIn sourceRuns)).map Prod.snd) := by
  have hstart : ∀ next, Looked predicate [] next { pending := { out := {} }, tags := [] } := fun next =>
    ⟨rfl,PendingRuns.after_start {} next,rfl⟩
  obtain ⟨s,hread,hs⟩ := tagRuns_looked sourceRuns hstart le_rfl
  rw [List.nil_append] at hread hs
  have hnone : s.pending.start = none := by
    rcases hopen : s.pending.start with _ | start
    · rfl
    · have h0 := (hs 0).after.touches start hopen
      have h1 := (hs 1).after.touches start hopen
      omega
  have hout := (hs 0).after.closed
  rw [PendingRuns.close_of_start_none hnone] at hout
  rw [buildTaggedSelectionRuns,hread,Option.bind_some,(hs 0).tags,(hs 0).valueOffset,hout,if_pos]
  simp [SelectedRuns.selectedRows_pushRows]

namespace SelectedRuns

theorem runs_pushRuns {p : ℕ → Prop} {runs : List (ℕ × ℕ)} (h : MaximalRuns p runs) : (({} : SelectedRuns).pushRuns runs).runs = runs := by
  obtain ⟨hnonempty,hapart,-⟩ := h
  induction runs using List.reverseRecOn with
  | nil => rfl
  | append_singleton runs run ih =>
    obtain ⟨hruns,-,hlast⟩ := List.pairwise_append.mp hapart
    rw [pushRuns_concat,pushRun,if_neg (hnonempty run (by simp)).ne']
    simp only [ih (fun r hr => hnonempty r (by simp [hr])) hruns]
    rcases List.eq_nil_or_concat runs with rfl | ⟨before,last,rfl⟩
    · rfl
    · have hgap := hlast last (by simp) run (by simp)
      simp [hgap.ne]

end SelectedRuns

theorem rowsIn_eq {runs : List (ℕ × ℕ)} (h : MaximalRuns (· ∈ rows) runs) (hrows : rows.Pairwise (· < ·)) : rowsIn runs = rows := by
  refine List.Pairwise.eq_of_mem_iff (List.pairwise_flatMap.mpr ⟨fun run _ => ?_,?_⟩) hrows fun row => ?_
  · exact List.pairwise_lt_range'
  · refine h.apart.imp fun hgap row hrow row' hrow' => ?_
    simp at hrow hrow'
    omega
  · simp [rowsIn,h.covers]

/-- Of sorted source rows a stage gives the kept ones as maximal runs with their tags in order, and a stage on what it gives is
one stage by the conjunction of the predicates. -/
theorem buildTaggedSelectionRuns_composes (predicate : ℕ → Option Tag) (sourceRuns : List (ℕ × ℕ))
    (hsorted : (rowsIn sourceRuns).Pairwise (· < ·)) :
    ∃ out, buildTaggedSelectionRuns (rowsIn sourceRuns).length predicate sourceRuns {} [] = some out ∧
      MaximalRuns (· ∈ (taggedRows predicate (rowsIn sourceRuns)).map Prod.fst) out.1.runs ∧
      out.2 = (taggedRows predicate (rowsIn sourceRuns)).map Prod.snd ∧
      ∀ (Tag' : Type) (second : ℕ → Option Tag'), buildTaggedSelectionRuns out.2.length second out.1.runs {} [] =
        buildTaggedSelectionRuns (rowsIn sourceRuns).length (conjunction predicate second) sourceRuns {} [] := by
  have hkept := hsorted.sublist (map_fst_taggedRows_sublist predicate _)
  obtain ⟨runs,hmax,hpush⟩ := SelectedRuns.exists_maximalRuns hkept
  refine ⟨_,buildTaggedSelectionRuns_eq predicate sourceRuns,?_⟩
  rw [hpush,SelectedRuns.runs_pushRuns hmax]
  refine ⟨hmax,rfl,fun Tag' second => ?_⟩
  have hstage := buildTaggedSelectionRuns_eq second runs
  rw [rowsIn_eq hmax hkept,taggedRows_conjunction,← buildTaggedSelectionRuns_eq] at hstage
  rw [← hstage,List.length_map,List.length_map]

/-- Every other row of four and three rows. -/
theorem buildTaggedSelectionRuns_two_runs :
    (buildTaggedSelectionRuns 7 (fun offset => if offset % 2 = 0 then some offset else none) [(10,4),(20,3)] {} []).map Prod.snd =
      some [0,2,4,6] := by
  obtain ⟨out,hout,-,htags,-⟩ := buildTaggedSelectionRuns_composes (fun offset => if offset % 2 = 0 then some offset else none)
    [(10,4),(20,3)] (by decide)
  exact (congrArg (Option.map Prod.snd) hout).trans (congrArg some (htags.trans (by decide)))

end Dodam.Storage
