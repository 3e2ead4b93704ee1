import Dodam.Execution.HashJoin.ProbeCorrect

/-! # The final pass over the build side

The pass emits the build rows that no probe row has matched.
-/
namespace Dodam.Execution
open Foundation DenseSlots

section Slots
variable {ρ : Type}

def DenseSlots.toOptions : DenseSlots ρ → List (Option ρ)
  | .complete rows => rows.map some
  | .sparse rows => rows

theorem DenseSlots.get_eq_toOptions (slots : DenseSlots ρ) (i : ℕ) :
    slots.get i = slots.toOptions[i]?.join := by
  cases slots with
  | complete rows =>
    simp only [get,toOptions,List.getElem?_map]
    cases rows[i]? <;> rfl
  | sparse rows => rfl

theorem DenseSlots.length_toOptions (slots : DenseSlots ρ) : slots.toOptions.length = slots.len := by
  cases slots with
  | complete rows => exact List.length_map ..
  | sparse rows => rfl

theorem DenseSlots.unmatched_eq (slots : DenseSlots ρ) (isMatched : List Bool) :
    slots.unmatched isMatched =
      slots.toOptions.zipIdx.filterMap fun row => if isMatched.getD row.2 false then none else row.1 := by
  cases slots with
  | complete rows =>
    simp only [unmatched,toOptions,List.zipIdx_map,List.filterMap_map]
    rfl
  | sparse rows => rfl

theorem DenseSlots.mem_unmatched {slots : DenseSlots ρ} {isMatched : List Bool} {r : ρ} :
    r ∈ slots.unmatched isMatched ↔ ∃ i, slots.get i = some r ∧ isMatched[i]? ≠ some true := by
  rw [unmatched_eq,List.mem_filterMap]
  simp only [get_eq_toOptions,Option.join_eq_some_iff]
  constructor
  · rintro ⟨⟨o,i⟩,hm,ho⟩
    rw [List.mem_zipIdx_iff_getElem?] at hm
    split at ho
    · cases ho
    · next hf =>
      refine ⟨i,by rw [hm,ho],fun ht => hf ?_⟩
      rw [List.getD_eq_getElem?_getD,ht]
      rfl
  · rintro ⟨i,hi,hf⟩
    refine ⟨(some r,i),List.mem_zipIdx_iff_getElem?.mpr hi,?_⟩
    rw [if_neg]
    rw [List.getD_eq_getElem?_getD]
    intro ht
    refine hf ?_
    cases h : isMatched[i]? with
    | none =>
      rw [h] at ht
      cases ht
    | some b =>
      rw [h] at ht
      exact congrArg some ht

theorem DenseSlots.nodup_unmatched {slots : DenseSlots ρ} (isMatched : List Bool)
    (h : ∀ i j r, slots.get i = some r → slots.get j = some r → i = j) :
    (slots.unmatched isMatched).Nodup := by
  rw [unmatched_eq,List.nodup_iff_pairwise_ne,List.pairwise_filterMap]
  have hidx : slots.toOptions.zipIdx.Pairwise fun a b => a.2 ≠ b.2 := by
    have hn : (slots.toOptions.zipIdx.map Prod.snd).Nodup := by
      rw [List.zipIdx_map_snd]
      exact List.nodup_range'
    exact List.pairwise_map.mp hn
  refine hidx.imp_of_mem ?_
  rintro ⟨o,i⟩ ⟨o',j⟩ hm hm' hij r hr r' hr' rfl
  rw [List.mem_zipIdx_iff_getElem?] at hm hm'
  split at hr
  · cases hr
  · split at hr'
    · cases hr'
    · refine hij (h i j r ?_ ?_)
      · rw [get_eq_toOptions,hm,hr]
        rfl
      · rw [get_eq_toOptions,hm',hr']
        rfl

end Slots

section Chunks
variable {α : Type} {build : HashJoinBuild α} {ps : List (BuildRowRef × Row α)}

theorem materializeUnmatchedBuildRows_ok (buildSide : JoinBuildSide) (hps : ∀ p ∈ ps, p ∈ rowRefs build.batches) :
    materializeUnmatchedBuildRows build buildSide (ps.map Prod.fst) =
      .ok (ps.map fun p => orient buildSide none (some p.2)) := by
  unfold materializeUnmatchedBuildRows
  rw [List.mapM_map]
  refine mapM_eq_map fun p hp => ?_
  rw [Function.comp_apply,takeBuildRow_of_mem (hps p hp)]
  rfl

/-- The finished chunks and the open one hold the rows pushed, in order. -/
theorem pushUnmatchedBuildRows_ok (buildSide : JoinBuildSide) (ps qs : List (BuildRowRef × Row α))
    (hps : ∀ p ∈ qs ++ ps, p ∈ rowRefs build.batches) (bs : List (OutputBatch α)) :
    ∃ (qs' : List (BuildRowRef × Row α)) (bs' : List (OutputBatch α)), (ps.map Prod.fst).foldlM (pushUnmatchedBuildRow build buildSide) (qs.map Prod.fst,bs) =
        .ok (qs'.map Prod.fst,bs') ∧ (∀ p ∈ qs', p ∈ rowRefs build.batches) ∧
      bs'.flatten ++ qs'.map (fun p => orient buildSide none (some p.2)) =
        bs.flatten ++ (qs ++ ps).map fun p => orient buildSide none (some p.2) := by
  induction ps generalizing qs bs with
  | nil =>
    refine ⟨qs,bs,rfl,fun p hp => hps p (List.mem_append_left _ hp),?_⟩
    rw [List.append_nil]
  | cons p ps ih =>
    have hstep : (qs ++ [p]) ++ ps = qs ++ p :: ps := by simp
    rw [List.map_cons,List.foldlM_cons]
    unfold pushUnmatchedBuildRow
    dsimp only
    have hrefs : qs.map Prod.fst ++ [p.1] = (qs ++ [p]).map Prod.fst := by simp
    rw [hrefs]
    split
    · rw [materializeUnmatchedBuildRows_ok buildSide fun q hq => hps q (by
        rw [← hstep]
        exact List.mem_append_left _ hq)]
      obtain ⟨qs',bs',hrun,hmem,hflat⟩ := ih [] (fun q hq => hps q (by
        rw [← hstep]
        exact List.mem_append_right _ hq)) (bs ++ [(qs ++ [p]).map fun p =>
          orient buildSide none (some p.2)])
      refine ⟨qs',bs',hrun,hmem,?_⟩
      rw [hflat,← hstep]
      simp
    · obtain ⟨qs',bs',hrun,hmem,hflat⟩ := ih (qs ++ [p]) (by rwa [hstep]) bs
      exact ⟨qs',bs',hrun,hmem,by rw [hflat,hstep]⟩

theorem emitUnmatchedChunks_ok (buildSide : JoinBuildSide)
    (hps : ∀ p ∈ ps, p ∈ rowRefs build.batches) :
    ∃ bs, emitUnmatchedChunks build buildSide (ps.map Prod.fst) = .ok bs ∧
      bs.flatten = ps.map fun p => orient buildSide none (some p.2) := by
  obtain ⟨qs,bs,hrun,hqs,hflat⟩ := pushUnmatchedBuildRows_ok buildSide ps [] hps []
  unfold emitUnmatchedChunks
  rw [show (([],[]) : List BuildRowRef × List (OutputBatch α)) = (([] : List (BuildRowRef × Row α)).map
    Prod.fst,[]) from rfl,hrun,except_bind_ok]
  split
  · next he =>
    have hnil : qs = [] := by simpa using he
    refine ⟨bs,rfl,?_⟩
    rw [hnil] at hflat
    simpa using hflat
  · rw [materializeUnmatchedBuildRows_ok buildSide hqs]
    refine ⟨_,rfl,?_⟩
    simpa using hflat

end Chunks

section Emission
variable {α : Type} {hashRowWithSalt : RowHash} {mode : HashBuildMode} {types : List DataType}
variable {build : HashJoinBuild α} {probed : Multiset (Row α)}

theorem exists_rows_of_refs (batches : List (RecordBatch α)) (refs : List BuildRowRef)
    (h : ∀ r ∈ refs, ∃ row, (r,row) ∈ rowRefs batches) :
    ∃ ps : List (BuildRowRef × Row α), ps.map Prod.fst = refs ∧ ∀ p ∈ ps, p ∈ rowRefs batches := by
  induction refs with
  | nil => exact ⟨[],rfl,by simp⟩
  | cons r refs ih =>
    obtain ⟨ps,hps,hmem⟩ := ih fun r hr => h r (List.mem_cons_of_mem _ hr)
    obtain ⟨row,hrow⟩ := h r List.mem_cons_self
    refine ⟨(r,row) :: ps,by rw [List.map_cons,hps],?_⟩
    intro p hp
    rcases List.mem_cons.mp hp with rfl | hp
    · exact hrow
    · exact hmem p hp

/-- The rows of the build side that the pass over a dense array cannot see. -/
def lostByDense (dense : Option DenseI32BuildRows) (build : Multiset (Row α)) : Multiset (Row α) :=
  if dense.isSome then build.filter fun row => row.ownedKey = none else 0

theorem filter_unmatched_split (build probed : Multiset (Row α)) :
    (build.filter fun row => row.ownedKey ≠ none ∧ Unmatched Row.ownedKey Row.ownedKey probed row) +
        (build.filter fun row => row.ownedKey = none) =
      build.filter (Unmatched Row.ownedKey Row.ownedKey probed) := by
  rw [← Multiset.filter_add_not (fun row : Row α => row.ownedKey ≠ none)
    (build.filter (Unmatched Row.ownedKey Row.ownedKey probed)),Multiset.filter_filter,
    Multiset.filter_filter]
  congr 1
  apply Multiset.filter_congr
  intro row _
  rw [not_not]
  exact (and_iff_left_of_imp fun h => unmatched_of_none Row.ownedKey Row.ownedKey h probed).symm

variable {tracker : MatchedBuildTracker}

theorem unmatchedBuildRefs_set (hall : build.allRows = (rowRefs build.batches).map Prod.fst)
    (hd : build.i32DenseUniqueRows = none) (htr : Tracks build.batches none probed tracker) :
    unmatchedBuildRefs build tracker = ((rowRefs build.batches).filter fun p =>
      Unmatched Row.ownedKey Row.ownedKey probed p.2).map Prod.fst := by
  cases tracker with
  | denseI32 => exact htr.elim
  | set rows =>
    unfold unmatchedBuildRefs
    rw [hd]
    dsimp only
    rw [hall,List.filter_map]
    congr 1
    apply List.filter_congr
    intro p hp
    have hm := htr p hp
    simp only [Function.comp_apply,MatchedBuildTracker.isMatched]
    by_cases hu : Unmatched Row.ownedKey Row.ownedKey probed p.2
    · have hn : p.1 ∉ rows := fun h => hm.mp h hu
      simp [hn,hu]
    · simp [hm.mpr hu,hu]

theorem mem_unmatched_dense {d : DenseI32BuildRows} {min : ℤ} {isMatched : List Bool} {count : ℕ}
    (hd : DenseUnique types (rowRefs build.batches) d)
    (htr : Tracks build.batches (some d) probed (.denseI32 min isMatched count))
    (ht : Typed types build.batches) {p : BuildRowRef × Row α} (hp : p ∈ rowRefs build.batches) :
    p.1 ∈ d.slots.unmatched isMatched ↔
      p.2.ownedKey ≠ none ∧ Unmatched Row.ownedKey Row.ownedKey probed p.2 := by
  obtain ⟨-,-,-,hmarks⟩ := htr
  have hown := ownedKey_eq_of_types int32Layout hd.serves.types_eq (ht.cellsMatch hp)
  rw [mem_unmatched,hown]
  constructor
  · rintro ⟨i,hi,hf⟩
    obtain ⟨q,hq,hqp,k,hk,rfl⟩ := (hd.slot i p.1).mp hi
    have hrow : q.2 = p.2 := rowRefs_functional (hqp ▸ hq : (p.1,q.2) ∈ _) hp
    rw [← hrow,hk]
    exact ⟨by simp,not_not.mp fun hu => hf ((hmarks q hq k hk).mpr hu)⟩
  · rintro ⟨hne,hu⟩
    obtain ⟨v,hv⟩ := Option.ne_none_iff_exists'.mp hne
    obtain ⟨k,hk,-⟩ := Option.map_eq_some_iff.mp hv
    refine ⟨(k.toInt - d.min).toNat,(hd.slot _ _).mpr ⟨p,hp,rfl,k,hk,rfl⟩,fun hm => ?_⟩
    exact (hmarks p hp k hk).mp hm hu

/-- The references of the final pass are those of the unmatched rows, but for the lost ones. -/
theorem unmatchedBuildRefs_spec (hv : build.Valid hashRowWithSalt mode true build.batches types)
    (hkeys : buildsKeySet mode types = false) (ht : Typed types build.batches)
    (htr : Tracks build.batches build.i32DenseUniqueRows probed tracker) :
    ∃ ps : List (BuildRowRef × Row α), ps.map Prod.fst = unmatchedBuildRefs build tracker ∧
      (∀ p ∈ ps, p ∈ rowRefs build.batches) ∧
      (↑(ps.map Prod.snd) : Multiset (Row α)) + lostByDense build.i32DenseUniqueRows (allRows build.batches) =
        (allRows build.batches).filter (Unmatched Row.ownedKey Row.ownedKey probed) := by
  have hsnd : ∀ q : Row α → Prop, [DecidablePred q] →
      (↑(((rowRefs build.batches).filter fun p => q p.2).map Prod.snd) : Multiset (Row α)) =
        (allRows build.batches).filter q := by
    intro q _
    unfold allRows
    rw [Multiset.filter_coe,← map_snd_rowRefs,List.filter_map]
    rfl
  cases hd : build.i32DenseUniqueRows with
  | none =>
    rw [hd] at htr
    refine ⟨_,(unmatchedBuildRefs_set (hv.allRows_eq hkeys) hd htr).symm,
      fun p hp => List.mem_of_mem_filter hp,?_⟩
    rw [hsnd,lostByDense,Option.isSome_none,if_neg (by simp),add_zero]
  | some d =>
    rw [hd] at htr
    have hdense := hv.i32DenseUnique d hd
    cases tracker with
    | set => exact htr.elim
    | denseI32 min isMatched count =>
      have hrefs : unmatchedBuildRefs build (.denseI32 min isMatched count) =
          d.slots.unmatched isMatched := by
        unfold unmatchedBuildRefs
        rw [hd]
      obtain ⟨ps,hps,hmem⟩ := exists_rows_of_refs build.batches
        (d.slots.unmatched isMatched) fun r hr => by
          obtain ⟨i,hi,-⟩ := mem_unmatched.mp hr
          obtain ⟨p,hp,rfl,-⟩ := (hdense.slot i r).mp hi
          exact ⟨p.2,hp⟩
      refine ⟨ps,by rw [hps,hrefs],hmem,?_⟩
      have hnodup : (d.slots.unmatched isMatched).Nodup := by
        refine nodup_unmatched isMatched fun i j r hi hj => ?_
        obtain ⟨p,hp,rfl,k,hk,rfl⟩ := (hdense.slot i r).mp hi
        obtain ⟨q,hq,hqp,k',hk',rfl⟩ := (hdense.slot j p.1).mp hj
        have hrow : q.2 = p.2 := rowRefs_functional (hqp ▸ hq : (p.1,q.2) ∈ _) hp
        rw [hrow,hk] at hk'
        rw [Option.some.inj hk']
      have hperm : ps.Perm ((rowRefs build.batches).filter fun p =>
          p.2.ownedKey ≠ none ∧ Unmatched Row.ownedKey Row.ownedKey probed p.2) := by
        refine (List.perm_ext_iff_of_nodup (List.Nodup.of_map Prod.fst (hps ▸ hnodup))
          ((List.Nodup.of_map _ (nodup_fst_rowRefs build.batches)).filter _)).mpr fun p => ?_
        rw [List.mem_filter,decide_eq_true_iff]
        constructor
        · intro hp
          refine ⟨hmem p hp,(mem_unmatched_dense hdense htr ht (hmem p hp)).mp ?_⟩
          rw [← hps]
          exact List.mem_map.mpr ⟨p,hp,rfl⟩
        · rintro ⟨hp,hu⟩
          have hr := (mem_unmatched_dense hdense htr ht hp).mpr hu
          rw [← hps] at hr
          obtain ⟨q,hq,hqp⟩ := List.mem_map.mp hr
          have hrow : q.2 = p.2 := rowRefs_functional (hqp ▸ hmem q hq : (p.1,q.2) ∈ _) hp
          rw [← Prod.ext hqp hrow]
          exact hq
      rw [Multiset.coe_eq_coe.mpr (hperm.map Prod.snd),hsnd fun row => row.ownedKey ≠ none ∧
        Unmatched Row.ownedKey Row.ownedKey probed row,lostByDense,Option.isSome_some,if_pos rfl]
      exact filter_unmatched_split _ _

theorem unmatchedBuildRefs_of_all
    (htr : Tracks build.batches build.i32DenseUniqueRows probed tracker)
    (hall : tracker.allDenseI32Matched = true) : unmatchedBuildRefs build tracker = [] := by
  cases tracker with
  | set => cases hall
  | denseI32 min isMatched count =>
    cases hd : build.i32DenseUniqueRows with
    | none =>
      rw [hd] at htr
      exact htr.elim
    | some d =>
      rw [hd] at htr
      obtain ⟨-,hlen,hcount,-⟩ := htr
      have heq : isMatched.count true = isMatched.length := by
        rw [← hcount]
        simpa [MatchedBuildTracker.allDenseI32Matched] using hall
      have htrue := List.count_eq_length.mp heq
      unfold unmatchedBuildRefs
      rw [hd]
      refine List.eq_nil_iff_forall_not_mem.mpr fun r hr => ?_
      obtain ⟨i,hi,hf⟩ := mem_unmatched.mp hr
      have hlt : i < isMatched.length := by
        rw [hlen,← length_toOptions]
        rw [get_eq_toOptions,Option.join_eq_some_iff] at hi
        exact (List.getElem?_eq_some_iff.mp hi).1
      refine hf ?_
      rw [List.getElem?_eq_getElem hlt,← htrue _ (List.getElem_mem hlt)]

theorem emitUnmatchedBuildIfNeeded_ok {buildSide : JoinBuildSide}
    {joinType : JoinType} (hv : build.Valid hashRowWithSalt mode true build.batches types)
    (hkeys : buildsKeySet mode types = false) (ht : Typed types build.batches)
    (htr : Tracks build.batches build.i32DenseUniqueRows probed tracker)
    (hemit : shouldEmitUnmatchedBuild joinType buildSide = true) (template : RecordBatch α) :
    ∃ bs, emitUnmatchedBuildIfNeeded build (some tracker) buildSide joinType (some template) false =
        .ok (bs,true) ∧ (↑bs.flatten : Multiset (JoinedRow α)) +
          (lostByDense build.i32DenseUniqueRows (allRows build.batches)).map
            (fun row => orient buildSide none (some row)) =
        ((allRows build.batches).filter (Unmatched Row.ownedKey Row.ownedKey probed)).map
          fun row => orient buildSide none (some row) := by
  obtain ⟨ps,hps,hmem,hsum⟩ := unmatchedBuildRefs_spec hv hkeys ht htr
  unfold emitUnmatchedBuildIfNeeded
  rw [if_neg (by simp [hemit])]
  dsimp only [Option.getD_some]
  rw [← hsum,Multiset.map_add,Multiset.map_coe,List.map_map]
  split
  · next hall =>
    have hnil : ps = [] := by
      rw [unmatchedBuildRefs_of_all htr hall] at hps
      simpa using hps
    subst hnil
    exact ⟨[],rfl,rfl⟩
  · obtain ⟨bs,hbs,hflat⟩ := emitUnmatchedChunks_ok buildSide hmem
    rw [← hps,hbs]
    exact ⟨bs,rfl,by rw [hflat]; rfl⟩

end Emission
end Dodam.Execution
