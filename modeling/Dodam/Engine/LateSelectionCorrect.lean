import Dodam.Engine.LateBuilder
import Dodam.Engine.LateSplit

/-! # Late selections are exact

A run of calls on an empty builder, finished and split, selects exactly the rows the calls
report.
-/
namespace Dodam.Engine
open Foundation Cost LateSelectionBuilder

/-- The calls one after the other, with the markers of each. -/
def runCalls (tuning : LateCoalesceTuning) (fuel : ℕ) :
    List LateCall → LateSelectionBuilder → Option (LateSelectionBuilder × List (List (Option ℕ)))
  | [], b => some (b,[])
  | call :: calls, b =>
    (call.apply tuning fuel b).bind fun (b,markers) =>
      (runCalls tuning fuel calls b).map fun (b,rest) => (b,markers :: rest)

def buildSelection (tuning : LateCoalesceTuning) (fuel : ℕ) (calls : List LateCall) :
    Option (LateSelection × List (List (Option ℕ))) :=
  (runCalls tuning fuel calls {}).map fun (b,markers) => (b.finishWithSelectors,markers)

/-- The selection of the rows that the calls report: the selectors are their run-length encoding,
the counts are right, and every division into row groups gets its own selected rows. -/
structure SelectsExactly (calls : List LateCall) (out : LateSelection) (markers : List (List (Option ℕ)))
    (reported : List (List Bool)) : Prop where
  reports : List.Forall₂ (fun call (r : List Bool × List (Option ℕ)) => call.Reports r.1 r.2) calls
    (reported.zip markers)
  lengths : reported.length = calls.length ∧ markers.length = calls.length
  encodes : expandRuns (out.selectors.map RowSelector.run) = reported.flatten
  canonical : CanonicalRuns (out.selectors.map RowSelector.run)
  totalRows : (out.selectors.map RowSelector.rowCount).sum = out.totalRows
  selectedRows : ((out.selectors.filter fun s => !s.skip).map RowSelector.rowCount).sum = out.selectedRows
  selectorRuns : out.selectorRuns = out.selectors.length
  selection : out.selection = if 0 < out.selectedRows then some out.selectors else none
  split : ∀ rowGroupRows : List ℕ, rowGroupRows.sum = out.totalRows →
    (splitLateSelectorsByRowGroup out.selectors rowGroupRows).length = rowGroupRows.length ∧
      ∀ k rowCount intervals, rowGroupRows[k]? = some rowCount →
        (splitLateSelectorsByRowGroup out.selectors rowGroupRows)[k]? = some intervals →
        Marks (fun i => i < rowCount ∧ reported.flatten[groupStart rowGroupRows k + i]? = some true) intervals

def pushedRows (calls : List LateCall) : ℕ := (calls.map LateCall.rowCount).sum

def LateCall.GapEnds (call : LateCall) : Prop :=
  call.maxGap < maxUnsigned 64 ∨ call.selectedOffsets.length ≤ 1

section Apply
variable {tuning : LateCoalesceTuning}
variable {call : LateCall} {b b' : LateSelectionBuilder} {markers : List (Option ℕ)}

/-- A call that returns appends the rows it reports. -/
theorem LateCall.apply_spec {fuel : ℕ} {base : List Bool} (hvalid : call.Valid) (hholds : b.Holds base) (hcounts : b.Counts base)
    (hfit : base.length + call.rowCount < 2 ^ 64) (h : call.apply tuning fuel b = some (b',markers)) :
    ∃ rows, call.Reports rows markers ∧ b'.Holds (base ++ rows) ∧ b'.Counts (base ++ rows) := by
  cases call with
  | push selected =>
    cases h
    refine ⟨[selected],⟨rfl,rfl⟩,(hholds.addRows _ _).append selected hfit,?_⟩
    have hadded : (b.addRows 1 (if selected then 1 else 0)).Counts (base ++ [selected]) :=
      hcounts.addRows (by exact hfit) rfl rfl rfl (by cases selected <;> rfl)
    exact ⟨(appendLateSelectorRun_totalRows ..).trans hadded.total,
      (appendLateSelectorRun_selectedRows ..).trans hadded.selected⟩
  | pushRepeated rowCount selected =>
    cases h
    refine ⟨List.replicate rowCount selected,⟨rfl,rfl⟩,?_⟩
    by_cases hzero : rowCount = 0
    · subst hzero
      simpa [LateSelectionBuilder.pushRepeated] using ⟨hholds,hcounts⟩
    · rw [LateSelectionBuilder.pushRepeated,if_neg hzero]
      have hcells : base.length + (List.replicate rowCount selected).length < 2 ^ 64 := by
        rw [List.length_replicate]
        exact hfit
      refine ⟨(hholds.append selected hfit).addRows _ _,hcounts.addRows hcells ?_ ?_ ?_ ?_⟩
      · exact appendLateSelectorRun_totalRows ..
      · exact appendLateSelectorRun_selectedRows ..
      · exact List.length_replicate.symm
      · cases selected with
        | true => exact List.count_replicate_self.symm
        | false => simp [List.count_replicate]
  | pushSelectedOffsets rowCount offsets | pushSelectedU32Offsets rowCount offsets =>
    cases h
    obtain ⟨hh,hc⟩ := selected_spec hholds hcounts hvalid.sorted hvalid.below hfit
    exact ⟨_,⟨rfl,rfl⟩,hh,hc⟩
  | pushSelectedU32OffsetsCoalesced rowCount offsets maxGap =>
    obtain ⟨gap,hgap,hresult⟩ := Option.map_eq_some_iff.mp h
    cases hresult
    have hle := chooseLateCoalesceMaxGap_le hgap
    obtain ⟨rows,hlength,hrequested,hbetween,hmarkers,hh,hc⟩ :=
      coalesced_spec hholds hcounts gap hvalid.sorted hvalid.below hfit
    refine ⟨rows,⟨hlength,hrequested,?_,hmarkers⟩,hh,hc⟩
    intro i hi
    rcases hbetween i hi with hmem | ⟨a,ha,c,hc,hac⟩
    · exact .inl hmem
    · exact .inr ⟨a,ha,c,hc,by omega⟩

variable (tuning) in
theorem LateCall.apply_returns (h : call.GapEnds) (b : LateSelectionBuilder) :
    ∃ r, call.apply tuning 65 b = some r := by
  cases call with
  | push selected => exact ⟨_,rfl⟩
  | pushRepeated rowCount selected => exact ⟨_,rfl⟩
  | pushSelectedOffsets rowCount offsets => exact ⟨_,rfl⟩
  | pushSelectedU32Offsets rowCount offsets => exact ⟨_,rfl⟩
  | pushSelectedU32OffsetsCoalesced rowCount offsets maxGap =>
    obtain ⟨gap,hgap⟩ : ∃ gap, chooseLateCoalesceMaxGap tuning 65 offsets maxGap = some gap :=
      chooseLateCoalesceMaxGap_returns h
    exact ⟨_,by rw [LateCall.apply,LateSelectionBuilder.pushSelectedU32OffsetsCoalesced,hgap]; rfl⟩

theorem LateCall.gapEnds_of_apply {fuel : ℕ} (hvalid : call.Valid)
    {r : LateSelectionBuilder × List (Option ℕ)} (h : call.apply tuning fuel b = some r) : call.GapEnds := by
  have hpos : 0 < maxUnsigned 64 := by decide
  cases call with
  | push selected => exact .inl hpos
  | pushRepeated rowCount selected => exact .inl hpos
  | pushSelectedOffsets rowCount offsets => exact .inl hpos
  | pushSelectedU32Offsets rowCount offsets => exact .inl hpos
  | pushSelectedU32OffsetsCoalesced rowCount offsets maxGap =>
    obtain ⟨gap,hgap,-⟩ := Option.map_eq_some_iff.mp h
    exact chooseLateCoalesceMaxGap_ends hvalid.maxGap_le hgap

theorem LateCall.apply_totalRows_lt {fuel : ℕ} (hb : b.totalRows < 2 ^ 64)
    (h : call.apply tuning fuel b = some (b',markers)) : b'.totalRows < 2 ^ 64 := by
  have hwrap : ∀ n, wrapUnsigned 64 n < 2 ^ 64 := fun n => Nat.mod_lt _ (by decide)
  cases call with
  | push selected =>
    cases h
    exact (appendLateSelectorRun_totalRows ..).trans_lt (hwrap _)
  | pushRepeated rowCount selected =>
    cases h
    by_cases hzero : rowCount = 0
    · rw [LateSelectionBuilder.pushRepeated,if_pos hzero]
      exact hb
    · rw [LateSelectionBuilder.pushRepeated,if_neg hzero]
      exact hwrap _
  | pushSelectedOffsets rowCount offsets =>
    cases h
    exact hwrap _
  | pushSelectedU32Offsets rowCount offsets =>
    cases h
    exact hwrap _
  | pushSelectedU32OffsetsCoalesced rowCount offsets maxGap =>
    obtain ⟨gap,-,hresult⟩ := Option.map_eq_some_iff.mp h
    cases hresult
    exact hwrap _

end Apply

section Run
variable {tuning : LateCoalesceTuning}
variable {fuel : ℕ} {calls : List LateCall} {b b' : LateSelectionBuilder} {markers : List (List (Option ℕ))}

theorem runCalls_cons_eq_some {call : LateCall}
    (h : runCalls tuning fuel (call :: calls) b = some (b',markers)) :
    ∃ b₁ first rest, call.apply tuning fuel b = some (b₁,first) ∧
      runCalls tuning fuel calls b₁ = some (b',rest) ∧ markers = first :: rest := by
  obtain ⟨⟨b₁,first⟩,hcall,h⟩ := Option.bind_eq_some_iff.mp h
  obtain ⟨⟨b₂,rest⟩,hrest,h⟩ := Option.map_eq_some_iff.mp h
  cases h
  exact ⟨b₁,first,rest,hcall,hrest,rfl⟩

theorem runCalls_spec (hvalid : ∀ call ∈ calls, call.Valid) {base : List Bool}
    (hholds : b.Holds base) (hcounts : b.Counts base) (hfit : base.length + pushedRows calls < 2 ^ 64)
    (h : runCalls tuning fuel calls b = some (b',markers)) : ∃ reported : List (List Bool),
      List.Forall₂ (fun call (r : List Bool × List (Option ℕ)) => call.Reports r.1 r.2) calls
        (reported.zip markers) ∧ (reported.length = calls.length ∧ markers.length = calls.length) ∧
      b'.Holds (base ++ reported.flatten) ∧ b'.Counts (base ++ reported.flatten) := by
  induction calls generalizing b base markers with
  | nil =>
    cases h
    exact ⟨[],.nil,⟨rfl,rfl⟩,by simpa using hholds,by simpa using hcounts⟩
  | cons call calls ih =>
    obtain ⟨b₁,first,rest,hcall,hrest,rfl⟩ := runCalls_cons_eq_some h
    have hsum : pushedRows (call :: calls) = call.rowCount + pushedRows calls := by
      simp [pushedRows]
    rw [hsum] at hfit
    obtain ⟨rows,hreports,hh,hc⟩ :=
      LateCall.apply_spec (hvalid call (by simp)) hholds hcounts (by omega) hcall
    obtain ⟨reported,hall,⟨hlen,hlen'⟩,hh',hc'⟩ :=
      ih (fun c hc => hvalid c (List.mem_cons_of_mem _ hc)) hh hc
        (by rw [List.length_append,hreports.length]; omega) hrest
    refine ⟨rows :: reported,.cons hreports hall,⟨by simp [hlen],by simp [hlen']⟩,?_,?_⟩
    · simpa using hh'
    · simpa using hc'

variable (tuning) in
theorem runCalls_returns (h : ∀ call ∈ calls, call.GapEnds)
    (b : LateSelectionBuilder) : ∃ r, runCalls tuning 65 calls b = some r := by
  induction calls generalizing b with
  | nil => exact ⟨_,rfl⟩
  | cons call calls ih =>
    obtain ⟨⟨b₁,first⟩,hcall⟩ := LateCall.apply_returns tuning (h call (by simp)) b
    obtain ⟨r,hr⟩ := ih (fun c hc => h c (List.mem_cons_of_mem _ hc)) b₁
    exact ⟨(r.1,first :: r.2),by simp only [runCalls,hcall,Option.bind_some,hr,Option.map_some]⟩

theorem gapEnds_of_runCalls (hvalid : ∀ call ∈ calls, call.Valid)
    (h : runCalls tuning fuel calls b = some (b',markers)) : ∀ call ∈ calls, call.GapEnds := by
  induction calls generalizing b markers with
  | nil => simp
  | cons call calls ih =>
    obtain ⟨b₁,first,rest,hcall,hrest,-⟩ := runCalls_cons_eq_some h
    intro c hc
    rcases List.mem_cons.mp hc with rfl | hc
    · exact LateCall.gapEnds_of_apply (hvalid c (by simp)) hcall
    · exact ih (fun c hc => hvalid c (List.mem_cons_of_mem _ hc)) hrest c hc

theorem runCalls_totalRows_lt (hb : b.totalRows < 2 ^ 64)
    (h : runCalls tuning fuel calls b = some (b',markers)) : b'.totalRows < 2 ^ 64 := by
  induction calls generalizing b markers with
  | nil =>
    cases h
    exact hb
  | cons call calls ih =>
    obtain ⟨b₁,first,rest,hcall,hrest,-⟩ := runCalls_cons_eq_some h
    exact ih (LateCall.apply_totalRows_lt hb hcall) hrest

end Run

variable {markers : List (List (Option ℕ))} {reported : List (List Bool)}

theorem LateSelectionBuilder.finish_spec {calls : List LateCall} {b : LateSelectionBuilder}
    (hreports : List.Forall₂ (fun call (r : List Bool × List (Option ℕ)) => call.Reports r.1 r.2) calls
      (reported.zip markers))
    (hlengths : reported.length = calls.length ∧ markers.length = calls.length)
    (hfit : reported.flatten.length < 2 ^ 64) (hholds : b.Holds reported.flatten)
    (hcounts : b.Counts reported.flatten) :
    SelectsExactly calls b.finishWithSelectors markers reported := by
  have hruns : b.finishWithSelectors.selectors.map RowSelector.run = b.runs := hholds.finish
  have hexpand : expandRuns (b.finishWithSelectors.selectors.map RowSelector.run) = reported.flatten := by
    rw [hruns]
    exact hholds.expand
  have htotal : b.finishWithSelectors.totalRows = reported.flatten.length := hcounts.total
  refine ⟨hreports,hlengths,hexpand,hruns ▸ hholds.canonical,?_,?_,rfl,rfl,?_⟩
  · rw [htotal,← hexpand,length_expandRuns,List.map_map]
    rfl
  · show _ = b.selectedRows
    rw [hcounts.selected,← hexpand,count_expandRuns,List.filter_map,List.map_map]
    simp [RowSelector.run,Function.comp_def]
  · intro rowGroupRows hsum
    rw [htotal] at hsum
    exact splitLateSelectorsByRowGroup_marks hexpand hsum.symm (by omega)

theorem length_flatten_of_reports {calls : List LateCall} (hlengths : reported.length = calls.length ∧ markers.length = calls.length)
    (h : List.Forall₂ (fun call (r : List Bool × List (Option ℕ)) => call.Reports r.1 r.2) calls
      (reported.zip markers)) : reported.flatten.length = pushedRows calls := by
  induction calls generalizing reported markers with
  | nil =>
    rw [List.length_eq_zero_iff.mp hlengths.1]
    rfl
  | cons call calls ih =>
    obtain ⟨rows,reported,rfl⟩ := List.exists_cons_of_length_eq_add_one hlengths.1
    obtain ⟨first,markers,rfl⟩ := List.exists_cons_of_length_eq_add_one hlengths.2
    rw [List.zip_cons_cons] at h
    cases h with
    | cons hreports hall =>
      have hrest := ih ⟨by simpa using hlengths.1,by simpa using hlengths.2⟩ hall
      simp only [List.flatten_cons,List.length_append,hreports.length,hrest]
      simp [pushedRows]

def BuildsExactly (tuning : LateCoalesceTuning) (calls : List LateCall) : Prop :=
  (∃ fuel r, buildSelection tuning fuel calls = some r) ∧
    ∀ fuel out markers, buildSelection tuning fuel calls = some (out,markers) →
      ∃ reported, SelectsExactly calls out markers reported

/-- The calls build the exact selection when the rows are fewer than a `usize` counts and every
search for a gap ends, and in no other case. -/
theorem buildsExactly_iff (tuning : LateCoalesceTuning) (calls : List LateCall)
    (hvalid : ∀ call ∈ calls, call.Valid) :
    BuildsExactly tuning calls ↔ pushedRows calls < 2 ^ 64 ∧ ∀ call ∈ calls, call.GapEnds := by
  constructor
  · rintro ⟨⟨fuel,⟨out,markers⟩,hreturns⟩,hexact⟩
    obtain ⟨reported,h⟩ := hexact fuel out markers hreturns
    obtain ⟨⟨b,ms⟩,hrun,hout⟩ := Option.map_eq_some_iff.mp hreturns
    cases hout
    refine ⟨?_,gapEnds_of_runCalls hvalid hrun⟩
    -- the selectors cover all rows, and their number is kept in a counter
    have hlt : b.totalRows < 2 ^ 64 := runCalls_totalRows_lt (by decide) hrun
    rw [← length_flatten_of_reports h.lengths h.reports,← h.encodes,length_expandRuns,List.map_map]
    exact (h.totalRows).trans_lt hlt
  · rintro ⟨hfit,hends⟩
    constructor
    · obtain ⟨r,hr⟩ := runCalls_returns tuning hends {}
      exact ⟨65,_,by rw [buildSelection,hr]; rfl⟩
    · intro fuel out markers h
      obtain ⟨⟨b,ms⟩,hrun,hout⟩ := Option.map_eq_some_iff.mp h
      cases hout
      obtain ⟨reported,hreports,hlengths,hholds,hcounts⟩ :=
        runCalls_spec hvalid holds_empty ⟨rfl,rfl⟩ (by simpa using hfit) hrun
      refine ⟨reported,LateSelectionBuilder.finish_spec hreports hlengths ?_ hholds hcounts⟩
      rw [length_flatten_of_reports hlengths hreports]
      exact hfit

/-- Calls of every kind: seven rows, of which a gap is coalesced. -/
def sampleCalls : List LateCall :=
  [.push true,.pushRepeated 2 false,.pushSelectedOffsets 0 [],.pushSelectedU32Offsets 1 [0],
    .pushSelectedU32OffsetsCoalesced 3 [0,2] 8]

theorem sampleCalls_valid : ∀ call ∈ sampleCalls, call.Valid := by
  intro call hcall
  simp only [sampleCalls,List.mem_cons,List.not_mem_nil,or_false] at hcall
  rcases hcall with rfl | rfl | rfl | rfl | rfl <;> exact ⟨by decide,by decide,by decide,by decide⟩

theorem buildsExactly_sampleCalls : BuildsExactly ⟨16,8⟩ sampleCalls :=
  (buildsExactly_iff ⟨16,8⟩ sampleCalls sampleCalls_valid).mpr ⟨by decide,fun call hcall => by
    simp only [sampleCalls,List.mem_cons,List.not_mem_nil,or_false] at hcall
    rcases hcall with rfl | rfl | rfl | rfl | rfl <;> exact .inl (by decide)⟩

/-- Two offsets of three rows and the largest `usize` as gap: the search for the gap never ends. -/
theorem coalesced_maxGap_never_builds :
    (∀ call ∈ [LateCall.pushSelectedU32OffsetsCoalesced 3 [0,2] (maxUnsigned 64)], call.Valid) ∧
      ¬BuildsExactly ⟨16,8⟩ [.pushSelectedU32OffsetsCoalesced 3 [0,2] (maxUnsigned 64)] := by
  have hvalid : ∀ call ∈ [LateCall.pushSelectedU32OffsetsCoalesced 3 [0,2] (maxUnsigned 64)], call.Valid := by
    intro call hcall
    rw [List.mem_singleton.mp hcall]
    exact ⟨by decide,le_rfl,by decide,by decide⟩
  refine ⟨hvalid,?_⟩
  rintro ⟨⟨fuel,r,hreturns⟩,-⟩
  obtain ⟨⟨b,ms⟩,hrun,-⟩ := Option.map_eq_some_iff.mp hreturns
  rcases gapEnds_of_runCalls hvalid hrun _ (List.mem_singleton_self _) with h | h
  · exact lt_irrefl _ h
  · exact absurd h (by decide)

end Dodam.Engine
