import Dodam.Execution.HashJoin.Matches
import Mathlib.Tactic.Abel

/-! # What a probe emits

A probe state stands for the rows of its finished batches and of its buffers. So a probe is
proved from what its body adds for one row.
-/
namespace Dodam.Execution
open Foundation

section Emits
variable {α : Type} {context : HashJoinMaterializeContext α}

def Stands (context : HashJoinMaterializeContext α) (state : ProbeState α)
    (out : Multiset (JoinedRow α)) : Prop :=
  ∃ pairs semi unmatched, materializeHashJoinPairs context state.pairs = .ok pairs ∧
    materializeSemiJoinRows context state.semiIndices = .ok semi ∧
    materializeUnmatchedProbeMatches context state.unmatchedProbeIndices = .ok unmatched ∧
    out = ↑state.output.flatten + ↑pairs + ↑semi + ↑unmatched

/-- A step adds `added` to what a state stands for and leaves the trackers. -/
def Pushes (context : HashJoinMaterializeContext α) (push : ProbeState α → Result (ProbeState α))
    (added : Multiset (JoinedRow α)) : Prop :=
  ∀ state out, Stands context state out →
    ∃ state', push state = .ok state' ∧ Stands context state' (out + added) ∧
      state'.matchedBuild = state.matchedBuild ∧ state'.matchedProbeKeys = state.matchedProbeKeys

theorem pushes_nothing : Pushes context .ok 0 := by
  intro state out h
  exact ⟨state,rfl,by rwa [add_zero],rfl,rfl⟩

theorem Pushes.bind {f g : ProbeState α → Result (ProbeState α)} {a b : Multiset (JoinedRow α)}
    (hf : Pushes context f a) (hg : Pushes context g b) :
    Pushes context (fun state => f state >>= g) (a + b) := by
  intro state out h
  obtain ⟨s',hs',h',hm,hk⟩ := hf state out h
  obtain ⟨s'',hs'',h'',hm',hk'⟩ := hg s' _ h'
  refine ⟨s'',?_,by rwa [← add_assoc],hm'.trans hm,hk'.trans hk⟩
  dsimp only
  rw [hs']
  exact hs''

theorem stands_init (mb : Option MatchedBuildTracker) (mk : Option (Finset OwnedRow)) :
    Stands context (ProbeState.init mb mk) 0 :=
  ⟨[],[],[],rfl,rfl,rfl,rfl⟩

theorem mapM_snoc {β γ : Type} {f : β → Result γ} {l : List β} {r : List γ} {b : β} {c : γ}
    (hl : l.mapM f = .ok r) (hb : f b = .ok c) : (l ++ [b]).mapM f = .ok (r ++ [c]) := by
  rw [List.mapM_append,hl,except_bind_ok,List.mapM_cons,hb]
  rfl

theorem takeProbeRow_of_mem {row : Row α} {i : ℕ} (h : (row,i) ∈ context.probe.rows.zipIdx) :
    takeProbeRow context.probe i = .ok row := by
  unfold takeProbeRow
  rw [List.mem_zipIdx_iff_getElem?.mp h]

theorem takeBuildRow_of_mem {build : HashJoinBuild α} {p : BuildRowRef × Row α}
    (h : p ∈ rowRefs build.batches) : takeBuildRow build p.1 = .ok p.2 := by
  obtain ⟨batch,hb,hr⟩ := mem_rowRefs.mp h
  unfold takeBuildRow
  simp only [hb,hr]

variable {row : Row α} {i : ℕ}

theorem pushHashJoinMatch_pushes (hrow : (row,i) ∈ context.probe.rows.zipIdx)
    {p : BuildRowRef × Row α} (hp : p ∈ rowRefs context.build.batches) :
    Pushes context (fun state => pushHashJoinMatch context i state p.1)
      {orient context.buildSide (some row) (some p.2)} := by
  rintro state out ⟨pairs,semi,unmatched,h1,h2,h3,rfl⟩
  have hpairs : materializeHashJoinPairs context (state.pairs ++ [(i,p.1)]) =
      .ok (pairs ++ [orient context.buildSide (some row) (some p.2)]) := by
    refine mapM_snoc h1 ?_
    rw [takeProbeRow_of_mem hrow,takeBuildRow_of_mem hp]
    rfl
  unfold pushHashJoinMatch
  dsimp only
  split
  · rw [hpairs,except_bind_ok]
    refine ⟨_,rfl,⟨[],semi,unmatched,rfl,h2,h3,?_⟩,rfl,rfl⟩
    simp only [List.flatten_append,List.flatten_singleton,← Multiset.coe_add,Multiset.coe_nil,
      Multiset.coe_singleton]
    abel
  · refine ⟨_,rfl,⟨_,semi,unmatched,hpairs,h2,h3,?_⟩,rfl,rfl⟩
    simp only [← Multiset.coe_add,Multiset.coe_singleton]
    abel

theorem pushHashJoinMatches_pushes (hrow : (row,i) ∈ context.probe.rows.zipIdx)
    {ps : List (BuildRowRef × Row α)} (hps : ∀ p ∈ ps, p ∈ rowRefs context.build.batches) :
    Pushes context (pushHashJoinMatches context i (ps.map Prod.fst))
      ↑(ps.map fun p => orient context.buildSide (some row) (some p.2)) := by
  induction ps with
  | nil => exact pushes_nothing
  | cons p ps ih =>
    have h := (pushHashJoinMatch_pushes hrow (hps p List.mem_cons_self)).bind
      (ih fun q hq => hps q (List.mem_cons_of_mem _ hq))
    exact h

theorem pushSemiIndex_pushes (hrow : (row,i) ∈ context.probe.rows.zipIdx) :
    Pushes context (pushSemiIndex context i) {(some row,none)} := by
  rintro state out ⟨pairs,semi,unmatched,h1,h2,h3,rfl⟩
  have hsemi : materializeSemiJoinRows context (state.semiIndices ++ [i]) =
      .ok (semi ++ [(some row,none)]) := by
    refine mapM_snoc h2 ?_
    rw [takeProbeRow_of_mem hrow]
    rfl
  unfold pushSemiIndex
  dsimp only
  split
  · rw [hsemi,except_bind_ok]
    refine ⟨_,rfl,⟨pairs,[],unmatched,h1,rfl,h3,?_⟩,rfl,rfl⟩
    simp only [List.flatten_append,List.flatten_singleton,← Multiset.coe_add,Multiset.coe_nil,
      Multiset.coe_singleton]
    abel
  · refine ⟨_,rfl,⟨pairs,_,unmatched,h1,hsemi,h3,?_⟩,rfl,rfl⟩
    simp only [← Multiset.coe_add,Multiset.coe_singleton]
    abel

theorem pushSemiJoinMatch_pushes (hside : context.buildSide = .right)
    (hrow : (row,i) ∈ context.probe.rows.zipIdx) :
    Pushes context (pushSemiJoinMatch context i) {(some row,none)} := by
  intro state
  unfold pushSemiJoinMatch
  rw [if_neg (not_not.mpr hside)]
  exact pushSemiIndex_pushes hrow state

def unmatchedOutput (buildSide : JoinBuildSide) (joinType : JoinType) (row : Row α) :
    Multiset (JoinedRow α) :=
  if preservesProbe joinType buildSide then {orient buildSide (some row) none} else 0

variable (joinType : JoinType)

theorem pushUnmatchedProbeIfOuter_pushes (hrow : (row,i) ∈ context.probe.rows.zipIdx)
    (hi : preservesProbe joinType context.buildSide = true → i < 2 ^ 32) :
    Pushes context (pushUnmatchedProbeIfOuter context joinType i)
      (unmatchedOutput context.buildSide joinType row) := by
  intro state
  unfold pushUnmatchedProbeIfOuter unmatchedOutput u32TryFrom
  by_cases hp : preservesProbe joinType context.buildSide = true
  · rw [hp,if_neg (by simp),if_pos rfl,if_pos (hi hp),except_bind_ok,takeProbeRow_of_mem hrow]
    rintro out ⟨pairs,semi,unmatched,h1,h2,h3,rfl⟩
    refine ⟨_,rfl,⟨pairs,semi,unmatched,h1,h2,h3,?_⟩,rfl,rfl⟩
    simp only [List.flatten_append,List.flatten_singleton,← Multiset.coe_add,
      Multiset.coe_singleton]
    abel
  · have hf : preservesProbe joinType context.buildSide = false := by simpa using hp
    rw [hf,if_pos rfl,if_neg (by simp)]
    exact pushes_nothing state

theorem pushUnmatchedProbeMatch_pushes (hrow : (row,i) ∈ context.probe.rows.zipIdx)
    (hi : preservesProbe joinType context.buildSide = true → i < 2 ^ 32) :
    Pushes context (pushUnmatchedProbeMatch context joinType i)
      (unmatchedOutput context.buildSide joinType row) := by
  intro state
  unfold pushUnmatchedProbeMatch unmatchedOutput u32TryFrom
  by_cases hp : preservesProbe joinType context.buildSide = true
  · rw [hp,if_neg (by simp),if_pos rfl,if_pos (hi hp),except_bind_ok]
    rintro out ⟨pairs,semi,unmatched,h1,h2,h3,rfl⟩
    have hun : materializeUnmatchedProbeMatches context (state.unmatchedProbeIndices ++ [i]) =
        .ok (unmatched ++ [orient context.buildSide (some row) none]) := by
      refine mapM_snoc h3 ?_
      rw [takeProbeRow_of_mem hrow]
      rfl
    dsimp only
    split
    · rw [hun,except_bind_ok]
      refine ⟨_,rfl,⟨pairs,semi,[],h1,h2,rfl,?_⟩,rfl,rfl⟩
      simp only [List.flatten_append,List.flatten_singleton,← Multiset.coe_add,Multiset.coe_nil,
        Multiset.coe_singleton]
      abel
    · refine ⟨_,rfl,⟨pairs,semi,_,h1,h2,hun,?_⟩,rfl,rfl⟩
      simp only [← Multiset.coe_add,Multiset.coe_singleton]
      abel
  · have hf : preservesProbe joinType context.buildSide = false := by simpa using hp
    rw [hf,if_pos rfl,if_neg (by simp)]
    exact pushes_nothing state

theorem flatten_filter_not_isEmpty {β : Type} (l : List (List β)) :
    (l.filter fun b => !b.isEmpty).flatten = l.flatten := by
  induction l with
  | nil => rfl
  | cons b l ih => cases b <;> simp [ih]

theorem flushProbe_stands {state : ProbeState α} {out : Multiset (JoinedRow α)}
    (h : Stands context state out) :
    ∃ o, flushProbe context state = .ok o ∧ (↑o.batches.flatten : Multiset (JoinedRow α)) = out ∧
      o.matchedBuild = state.matchedBuild ∧ o.matchedProbeKeys = state.matchedProbeKeys := by
  obtain ⟨pairs,semi,unmatched,h1,h2,h3,rfl⟩ := h
  unfold flushProbe
  rw [h1,except_bind_ok,h2,except_bind_ok,h3,except_bind_ok]
  refine ⟨_,rfl,?_,rfl,rfl⟩
  rw [List.flatten_append,flatten_filter_not_isEmpty]
  simp only [List.flatten_cons,List.flatten_nil,List.append_nil,← Multiset.coe_add,add_assoc]

end Emits

section Run
variable {α : Type} {context : HashJoinMaterializeContext α}

/-- A loop body adds `added row` for every probe row whose index it accepts, and moves the
trackers as `Trackers` says of the rows probed. It rejects a row it should add past the limit. -/
structure BodySpec (context : HashJoinMaterializeContext α)
    (body : ProbeState α → Row α × ℕ → Result (ProbeState α)) (added : Row α → Multiset (JoinedRow α))
    (Trackers : Multiset (Row α) → Option MatchedBuildTracker → Option (Finset OwnedRow) → Prop) :
    Prop where
  accept : ∀ row i, (row,i) ∈ context.probe.rows.zipIdx → (added row ≠ 0 → i < 2 ^ 32) →
    ∀ state out probed, Stands context state out →
      Trackers probed state.matchedBuild state.matchedProbeKeys →
      ∃ state', body state (row,i) = .ok state' ∧ Stands context state' (out + added row) ∧
        Trackers (probed + {row}) state'.matchedBuild state'.matchedProbeKeys
  reject : ∀ row i, (row,i) ∈ context.probe.rows.zipIdx → added row ≠ 0 → 2 ^ 32 ≤ i →
    ∀ state, ∃ e, body state (row,i) = .error e

def Indexable (added : Row α → Multiset (JoinedRow α)) (rows : List (Row α)) : Prop :=
  ∀ row i, (row,i) ∈ rows.zipIdx → added row ≠ 0 → i < 2 ^ 32

variable {body : ProbeState α → Row α × ℕ → Result (ProbeState α)}
variable {added : Row α → Multiset (JoinedRow α)}
variable {Trackers : Multiset (Row α) → Option MatchedBuildTracker → Option (Finset OwnedRow) → Prop}

theorem probeRows_ok (h : BodySpec context body added Trackers)
    (hi : Indexable added context.probe.rows) {mb : Option MatchedBuildTracker}
    {mk : Option (Finset OwnedRow)} {probed : Multiset (Row α)} (ht : Trackers probed mb mk) :
    ∃ o, probeRows context body (ProbeState.init mb mk) = .ok o ∧
      (↑o.batches.flatten : Multiset (JoinedRow α)) = (↑context.probe.rows : Multiset (Row α)).bind added ∧
      Trackers (probed + ↑context.probe.rows) o.matchedBuild o.matchedProbeKeys := by
  obtain ⟨state,hrun,hstands,htrack⟩ := foldlM_total
    (fun (seen : List (Row α × ℕ)) (state : ProbeState α) =>
      Stands context state ((↑(seen.map Prod.fst) : Multiset (Row α)).bind added) ∧
        Trackers (probed + ↑(seen.map Prod.fst)) state.matchedBuild state.matchedProbeKeys)
    (f := body) (l := context.probe.rows.zipIdx) (s := ProbeState.init mb mk)
    ⟨by simpa using stands_init mb mk,by simpa [ProbeState.init] using ht⟩ (by
      rintro seen ⟨row,i⟩ rest state hl ⟨hs,htr⟩
      have hm : (row,i) ∈ context.probe.rows.zipIdx := by
        rw [hl]
        simp
      obtain ⟨state',hb,hs',htr'⟩ := h.accept row i hm (hi row i hm) state _ _ hs htr
      refine ⟨state',hb,?_,?_⟩
      · simpa [← Multiset.coe_add] using hs'
      · simpa [← Multiset.coe_add,add_assoc] using htr')
  rw [List.zipIdx_map_fst] at hstands htrack
  obtain ⟨o,ho,hout,hmb,hmk⟩ := flushProbe_stands hstands
  refine ⟨o,?_,hout,by rw [hmb,hmk]; exact htrack⟩
  unfold probeRows
  rw [hrun]
  exact ho

theorem probeRows_error (h : BodySpec context body added Trackers)
    (hi : ¬ Indexable added context.probe.rows) (state : ProbeState α) :
    ∃ e, probeRows context body state = .error e := by
  unfold Indexable at hi
  push Not at hi
  obtain ⟨row,i,hm,hne,hlt⟩ := hi
  obtain ⟨e,he⟩ := foldlM_error (fun _ => True) (fun _ _ _ _ _ => trivial) hm
    (fun state _ => h.reject row i hm hne hlt state) (s := state) trivial
  unfold probeRows
  rw [he]
  exact ⟨e,rfl⟩

end Run
end Dodam.Execution
