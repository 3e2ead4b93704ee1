import Dodam.Storage.EncodedIds

/-! # Selected ids in blocks

The runs of the body are intersected with the selected runs block by block. The
cursor keeps the selected runs that reach beyond the block before.
-/
namespace Dodam.Storage.Encoded
open Foundation Execution BitpackedDictionaryIdBlockReader
open SimpleRleBitpackedDecoder (remaining_new)

/-- The runs that are left mark the rows from some row on. -/
structure CursorAt (p : ℕ → Prop) (cursor : List (ℕ × ℕ)) (row : ℕ) : Prop where
  nonempty : ∀ r ∈ cursor, 0 < r.2
  sorted : cursor.Pairwise fun r s => r.1 + r.2 ≤ s.1
  covers : ∀ i, row ≤ i → (p i ↔ ∃ r ∈ cursor, r.1 ≤ i ∧ i < r.1 + r.2)

section Cursor
variable {p : ℕ → Prop} {cursor passed : List (ℕ × ℕ)} {row row' : ℕ}

theorem cursorAt_of_marks (h : Marks p cursor) (row : ℕ) : CursorAt p cursor row :=
  ⟨h.nonempty,h.sorted,fun i _ => h.covers i⟩

theorem CursorAt.pass (h : CursorAt p (passed ++ cursor) row) (hrow : row ≤ row') (hpassed : ∀ r ∈ passed, r.1 + r.2 ≤ row') :
    CursorAt p cursor row' := by
  refine ⟨fun r hr => h.nonempty r (List.mem_append_right _ hr),(List.pairwise_append.mp h.sorted).2.1,fun i hi => ?_⟩
  rw [h.covers i (hrow.trans hi)]
  constructor
  · rintro ⟨r,hr,hle,hlt⟩
    rcases List.mem_append.mp hr with hr | hr
    · have := hpassed r hr
      omega
    · exact ⟨r,hr,hle,hlt⟩
  · rintro ⟨r,hr,hle,hlt⟩
    exact ⟨r,List.mem_append_right _ hr,hle,hlt⟩

theorem CursorAt.advance (h : CursorAt p cursor row) :
    CursorAt p (advanceRunCursor cursor row) row ∧ ∀ r ∈ advanceRunCursor cursor row, row < r.1 + r.2 := by
  have hsplit : cursor.takeWhile (fun r => r.1 + r.2 ≤ row) ++ advanceRunCursor cursor row = cursor :=
    List.takeWhile_append_dropWhile
  have hadvanced : CursorAt p (advanceRunCursor cursor row) row := by
    refine CursorAt.pass (hsplit.symm ▸ h) le_rfl fun r hr => ?_
    simpa using List.mem_takeWhile_imp hr
  refine ⟨hadvanced,fun r hr => ?_⟩
  generalize hleft : advanceRunCursor cursor row = left at hadvanced hr
  cases left with
  | nil => cases hr
  | cons first left =>
    have hfirst : row < first.1 + first.2 := by
      have hne : cursor.dropWhile (fun r => r.1 + r.2 ≤ row) ≠ [] := by
        rw [advanceRunCursor] at hleft
        rw [hleft]
        exact List.cons_ne_nil _ _
      have hhead := List.head_dropWhile_not (fun r : ℕ × ℕ => decide (r.1 + r.2 ≤ row)) hne
      have heq : (cursor.dropWhile fun r => decide (r.1 + r.2 ≤ row)).head hne = first := by
        simp only [advanceRunCursor] at hleft
        simp only [hleft,List.head_cons]
      rw [heq] at hhead
      exact Nat.not_le.mp (of_decide_eq_false hhead)
    rcases List.mem_cons.mp hr with rfl | hr
    · exact hfirst
    · have hafter := (List.pairwise_cons.mp hadvanced.sorted).1 r hr
      have hpos := hadvanced.nonempty r (List.mem_cons_of_mem _ hr)
      omega

end Cursor

section Block
variable {p : ℕ → Prop} [DecidablePred p] {cursor : List (ℕ × ℕ)} {blockStart : ℕ} {ids : List ℕ}
  {emit : ℕ → ℕ → Result (List ℤ)}

/-- The parts of the runs inside a block, and the runs that are left. -/
theorem rangesInBlock_localRanges (hsorted : cursor.Pairwise fun r s => r.1 + r.2 ≤ s.1) (hpos : ∀ r ∈ cursor, 0 < r.2)
    (hreach : ∀ r ∈ cursor, blockStart < r.1 + r.2)
    (hemit : ∀ a b, blockStart ≤ a → b ≤ blockStart + ids.length →
      emit a b = .ok ((slice ids (a - blockStart) (b - blockStart)).map asI32)) (output : List ℤ) :
    ∃ passed left, cursor = passed ++ left ∧ (∀ r ∈ passed, r.1 + r.2 ≤ blockStart + ids.length) ∧
      rangesInBlock emit blockStart (blockStart + ids.length) cursor output =
        .ok (left,output ++ ((localRanges blockStart ids.length cursor).flatMap fun r => slice ids r.1 r.2).map asI32) := by
  induction cursor generalizing output with
  | nil => exact ⟨[],[],rfl,nofun,by simp [rangesInBlock,localRanges]⟩
  | cons run runs ih =>
    obtain ⟨s,n⟩ := run
    obtain ⟨hfirst,hsorted⟩ := List.pairwise_cons.mp hsorted
    rw [rangesInBlock]
    by_cases hafter : blockStart + ids.length ≤ s
    · refine ⟨[],_,rfl,nofun,?_⟩
      rw [if_pos hafter,localRanges,if_pos hafter]
      simp
    have hbehind : ¬s + n ≤ blockStart := Nat.not_le.mpr (hreach (s,n) List.mem_cons_self)
    rw [if_neg hafter,localRanges_run hafter hbehind]
    dsimp only
    rw [hemit _ _ (Nat.le_max_right ..) (Nat.min_le_right ..)]
    simp only [Except.bind]
    by_cases hbeyond : blockStart + ids.length < s + n
    · -- the later runs start behind the block
      have hnone : localRanges blockStart ids.length runs = [] := by
        cases runs with
        | nil => rfl
        | cons next runs =>
          have hnext := hfirst next List.mem_cons_self
          rw [localRanges,if_pos (by omega)]
      refine ⟨[],_,rfl,nofun,?_⟩
      rw [if_pos hbeyond,hnone]
      simp
    · obtain ⟨passed,left,rfl,hpassed,hout⟩ := ih hsorted (fun r hr => hpos r (List.mem_cons_of_mem _ hr))
        (fun r hr => hreach r (List.mem_cons_of_mem _ hr))
        (output ++ (slice ids (max s blockStart - blockStart) (min (s + n) (blockStart + ids.length) - blockStart)).map asI32)
      refine ⟨(s,n) :: passed,left,rfl,List.forall_mem_cons.mpr ⟨Nat.le_of_not_lt hbeyond,hpassed⟩,?_⟩
      rw [if_neg hbeyond,hout,List.flatMap_cons,List.map_append,List.append_assoc]

theorem rangesInBlock_selectAt (h : CursorAt p cursor blockStart)
    (hemit : ∀ a b, blockStart ≤ a → b ≤ blockStart + ids.length →
      emit a b = .ok ((slice ids (a - blockStart) (b - blockStart)).map asI32)) (output : List ℤ) :
    ∃ left, rangesInBlock emit blockStart (blockStart + ids.length) (advanceRunCursor cursor blockStart) output =
        .ok (left,output ++ (selectAt p blockStart ids).map asI32) ∧
      CursorAt p left (blockStart + ids.length) := by
  obtain ⟨hadvanced,hreach⟩ := h.advance
  obtain ⟨passed,left,hsplit,hpassed,hout⟩ := rangesInBlock_localRanges hadvanced.sorted hadvanced.nonempty hreach hemit output
  have hranges : RangesOf (fun i => p (blockStart + i)) ids.length 0
      (localRanges blockStart ids.length (advanceRunCursor cursor blockStart)) :=
    localRanges_rangesOf hadvanced.nonempty hadvanced.sorted
      (fun i _ _ => hadvanced.covers (blockStart + i) (Nat.le_add_right ..)) (.inl rfl)
  have hselect := hranges.selectAt_eq rfl (Nat.zero_le _)
  rw [List.drop_zero,selectAt_add] at hselect
  refine ⟨left,?_,(hsplit ▸ hadvanced).pass (Nat.le_add_right ..) hpassed⟩
  rw [hout,← hselect,Nat.add_zero]

variable {dictionaryLen : ℕ}

theorem checkedDictionaryIdI32_eq {id : ℕ} (h : id < dictionaryLen ∧ id < 2 ^ 31) :
    checkedDictionaryIdI32 id dictionaryLen = .ok (asI32 id) := by
  rw [checkedDictionaryIdI32,if_neg (Nat.not_le.mpr h.1),if_pos h.2,asI32_of_lt h.2]

theorem mapM_checked {ids : List ℕ} (h : ∀ id ∈ ids, id < dictionaryLen ∧ id < 2 ^ 31) :
    ids.mapM (checkedDictionaryIdI32 · dictionaryLen) = .ok (ids.map asI32) := by
  induction ids with
  | nil => rfl
  | cons id ids ih =>
    rw [List.mapM_cons,checkedDictionaryIdI32_eq (h id List.mem_cons_self),ih fun i hi => h i (List.mem_cons_of_mem _ hi)]
    rfl

theorem appendRepeatedId_eq (h : CursorAt p cursor blockStart) (id blockRows : ℕ) (output : List ℤ) :
    ∃ left, appendRepeatedIdForSelectedRanges (asI32 id) blockStart blockRows cursor output =
        .ok (left,output ++ (selectAt p blockStart (List.replicate blockRows id)).map asI32) ∧
      CursorAt p left (blockStart + blockRows) := by
  have hemit : ∀ a b, blockStart ≤ a → b ≤ blockStart + (List.replicate blockRows id).length →
      (.ok (List.replicate (b - a) (asI32 id)) : Result (List ℤ)) =
        .ok ((slice (List.replicate blockRows id) (a - blockStart) (b - blockStart)).map asI32) := by
    intro a b ha hb
    rw [List.length_replicate] at hb
    rw [slice,List.drop_replicate,List.take_replicate,List.map_replicate]
    congr 2
    omega
  have hblock := rangesInBlock_selectAt h hemit output
  rwa [List.length_replicate] at hblock

theorem appendIdBlock_eq (h : CursorAt p cursor blockStart) (hids : ∀ id ∈ ids, id < dictionaryLen ∧ id < 2 ^ 31)
    (output : List ℤ) :
    ∃ left, appendIdBlockForSelectedRanges ids dictionaryLen blockStart cursor output =
        .ok (left,output ++ (selectAt p blockStart ids).map asI32) ∧
      CursorAt p left (blockStart + ids.length) :=
  rangesInBlock_selectAt h (fun _ _ _ _ => mapM_checked fun id hid =>
    hids id (List.mem_of_mem_drop (List.mem_of_mem_take hid))) output

theorem idBlocks_eq {data : List UInt8} {stop w off count fuel row : ℕ} (hinside : off + count * w ≤ 8 * stop)
    (hfuel : count ≤ fuel) (h : CursorAt p cursor row)
    (hids : ∀ id ∈ bitFields (leNat data) w off count, id < dictionaryLen ∧ id < 2 ^ 31) (output : List ℤ) :
    ∃ left, idBlocks dictionaryLen fuel count row (atBit data stop w off) cursor output =
        .ok (left,output ++ (selectAt p row (bitFields (leNat data) w off count)).map asI32) ∧
      CursorAt p left (row + count) := by
  induction fuel generalizing count off row cursor output with
  | zero =>
    obtain rfl := Nat.le_zero.mp hfuel
    exact ⟨cursor,by simp [idBlocks,bitFields],h⟩
  | succ fuel ih =>
    rcases Nat.eq_zero_or_pos count with rfl | hcount
    · exact ⟨cursor,by simp [idBlocks,bitFields],h⟩
    obtain ⟨left,hleft⟩ := Nat.exists_eq_add_of_le (Nat.min_le_right dictionaryIdBlock count)
    generalize hblock : min dictionaryIdBlock count = block at hleft
    have hpos : 0 < block := hblock ▸ Nat.lt_min.mpr ⟨by decide,hcount⟩
    subst hleft
    have hbits : off + (block + left) * w = off + block * w + left * w := by ring
    rw [bitFields_add] at hids ⊢
    rw [hbits] at hinside
    obtain ⟨cursor₁,hfirst,hcursor₁⟩ := appendIdBlock_eq h (fun id hid => hids id (List.mem_append_left _ hid)) output
    rw [length_bitFields] at hcursor₁
    obtain ⟨cursor₂,hrest,hcursor₂⟩ := ih hinside (by omega) hcursor₁ (fun id hid => hids id (List.mem_append_right _ hid))
      (output ++ (selectAt p row (bitFields (leNat data) w off block)).map asI32)
    refine ⟨cursor₂,?_,Nat.add_assoc row block left ▸ hcursor₂⟩
    rw [idBlocks,if_neg hcount.ne',hblock]
    dsimp only
    rw [decodeBlock_atBit (by omega)]
    simp only [Except.bind,hfirst,Nat.add_sub_cancel_left,hrest]
    rw [selectAt_append,length_bitFields,List.map_append,List.append_assoc]

end Block

section Runs
variable {p : ℕ → Prop} [DecidablePred p] {data : List UInt8} {w values dictionaryLen pageRowStart : ℕ}

theorem blockedRuns_done (fuel pos decoded : ℕ) (cursor : List (ℕ × ℕ)) (output : List ℤ) :
    blockedRuns data w decoded dictionaryLen pageRowStart (fuel + 1) pos decoded cursor output = .ok (true,output) := by
  rw [blockedRuns,if_pos le_rfl,beq_self_eq_true]

theorem blockedRuns_repeated {pos pos' decoded len id fuel : ℕ} (hrow : decoded < values)
    (hrun : runAt w data pos = .ok (.repeated len id,pos')) (cursor : List (ℕ × ℕ)) (output : List ℤ) :
    blockedRuns data w values dictionaryLen pageRowStart (fuel + 1) pos decoded cursor output =
      (checkedDictionaryIdI32 id dictionaryLen).bind fun id =>
        (appendRepeatedIdForSelectedRanges id (pageRowStart + decoded) (min len (values - decoded)) cursor output).bind
          fun (cursor,output) => blockedRuns data w values dictionaryLen pageRowStart fuel pos'
            (decoded + min len (values - decoded)) cursor output := by
  rw [blockedRuns,if_neg (Nat.not_le.mpr hrow)]
  rw [runAt] at hrun
  split at hrun
  · cases hrun
  · cases hrun
  · next header start hheader =>
    dsimp only at hrun
    split_ifs at hrun with heven hfits hfits
    · cases hrun
      rw [hheader]
      simp only [Except.bind,heven,if_true,if_neg hfits,leWord_eq_leNat]
    · cases hrun

theorem blockedRuns_packed (dictionaryLen : ℕ) {pos pos' decoded fuel : ℕ} {ids : List ℕ} (hrow : decoded < values)
    (hrun : runAt w data pos = .ok (.packed ids,pos')) (cursor : List (ℕ × ℕ)) (output : List ℤ) :
    ∃ start, ids = bitFields (leNat data) w (8 * start) ids.length ∧ 8 * start + ids.length * w ≤ 8 * pos' ∧
      blockedRuns data w values dictionaryLen pageRowStart (fuel + 1) pos decoded cursor output =
        (idBlocks dictionaryLen (min ids.length (values - decoded)) (min ids.length (values - decoded))
          (pageRowStart + decoded) (atBit data pos' w (8 * start)) cursor output).bind fun (cursor,output) =>
            blockedRuns data w values dictionaryLen pageRowStart fuel pos' (decoded + min ids.length (values - decoded))
              cursor output := by
  rw [blockedRuns,if_neg (Nat.not_le.mpr hrow)]
  rw [runAt] at hrun
  split at hrun
  · cases hrun
  · cases hrun
  · next header start hheader =>
    dsimp only at hrun
    split_ifs at hrun with heven hfits hfits
    · cases hrun
    · cases hrun
      refine ⟨start,by rw [length_bitFields],?_,?_⟩
      · rw [length_bitFields]
        omega
      · rw [hheader,length_bitFields]
        simp only [Except.bind,heven,if_false,if_neg hfits,new_eq_atBit]

theorem exists_taken {run tail ids padding : List ℕ} (h : run ++ tail = ids ++ padding) :
    ∃ left padding', tail = left ++ padding' ∧ ids = run.take ids.length ++ left := by
  rcases List.append_eq_append_iff.mp h with ⟨left,rfl,rfl⟩ | ⟨more,rfl,rfl⟩
  · refine ⟨left,padding,rfl,?_⟩
    rw [List.take_of_length_le (by rw [List.length_append]; exact Nat.le_add_right ..)]
  · exact ⟨[],tail,rfl,by rw [List.take_left,List.append_nil]⟩

theorem blockedRuns_eq {runs : List PageRun} {pos fuel decoded : ℕ} {e : RunsEnd} {ids padding : List ℕ}
    {cursor : List (ℕ × ℕ)} (hruns : RunsAt w data pos runs e) (hfuel : data.length - pos < fuel)
    (hflat : runs.flatMap PageRun.ids = ids ++ padding) (hpos : ∀ len id, PageRun.repeated len id ∈ runs → 0 < len)
    (hdecoded : decoded + ids.length = values) (hids : ∀ id ∈ ids, id < dictionaryLen ∧ id < 2 ^ 31)
    (h : CursorAt p cursor (pageRowStart + decoded)) (output : List ℤ) :
    blockedRuns data w values dictionaryLen pageRowStart fuel pos decoded cursor output =
      .ok (true,output ++ (selectAt p (pageRowStart + decoded) ids).map asI32) := by
  induction hruns generalizing fuel decoded ids padding cursor output with
  | @last pos e hrun =>
    have hnil : ids = [] := (List.append_eq_nil_iff.mp hflat.symm).1
    subst hnil
    obtain ⟨fuel,rfl⟩ := Nat.exists_eq_add_of_lt hfuel
    obtain rfl : decoded = values := hdecoded
    rw [blockedRuns_done]
    simp
  | @more pos pos' run runs e hrun hrest ih =>
    obtain ⟨fuel,rfl⟩ := Nat.exists_eq_add_of_lt hfuel
    have hlt := runAt_lt hrun
    rcases Nat.eq_zero_or_pos ids.length with hzero | hsome
    · have hnil : ids = [] := List.eq_nil_of_length_eq_zero hzero
      subst hnil
      obtain rfl : decoded = values := hdecoded
      rw [blockedRuns_done]
      simp
    rw [List.flatMap_cons] at hflat
    obtain ⟨left,padding',htail,hsplit⟩ := exists_taken hflat
    have hrow : decoded < values := by omega
    have hcount : values - decoded = ids.length := by omega
    have htaken : (run.ids.take ids.length).length = min run.ids.length ids.length := by
      rw [List.length_take,Nat.min_comm]
    have hlength : ids.length = min run.ids.length ids.length + left.length := by
      conv_lhs => rw [hsplit,List.length_append,htaken]
    -- the rows of the run, and those behind it
    have hselect : (selectAt p (pageRowStart + decoded) ids).map asI32 =
        (selectAt p (pageRowStart + decoded) (run.ids.take ids.length)).map asI32 ++
          (selectAt p (pageRowStart + (decoded + min run.ids.length ids.length)) left).map asI32 := by
      conv_lhs => rw [hsplit,selectAt_append,htaken,List.map_append,Nat.add_assoc]
    have hnext {cursor' : List (ℕ × ℕ)} (hcursor : CursorAt p cursor' (pageRowStart + (decoded + min run.ids.length ids.length)))
        (output : List ℤ) :
        blockedRuns data w values dictionaryLen pageRowStart (data.length - pos + fuel) pos'
          (decoded + min run.ids.length ids.length) cursor' output = .ok (true,output ++
            (selectAt p (pageRowStart + (decoded + min run.ids.length ids.length)) left).map asI32) := ih (by omega) htail
      (fun len id hmem => hpos len id (List.mem_cons_of_mem _ hmem)) (by omega)
      (fun id hid => hids id (hsplit ▸ List.mem_append_right _ hid)) hcursor output
    have hknown : ∀ id ∈ run.ids.take ids.length, id < dictionaryLen ∧ id < 2 ^ 31 := fun id hid =>
      hids id (hsplit ▸ List.mem_append_left _ hid)
    rw [hselect,← List.append_assoc]
    cases run with
    | repeated len id =>
      have hlen := hpos len id List.mem_cons_self
      have hid : id ∈ (PageRun.repeated len id).ids.take ids.length := by
        rw [PageRun.ids,List.take_replicate]
        exact List.mem_replicate.mpr ⟨by omega,rfl⟩
      have hrunLength : (PageRun.repeated len id).ids.length = len := List.length_replicate
      have hrunIds : (PageRun.repeated len id).ids.take ids.length = List.replicate (min len ids.length) id := by
        rw [PageRun.ids,List.take_replicate,Nat.min_comm]
      obtain ⟨cursor',hout,hcursor⟩ := appendRepeatedId_eq h id (min len ids.length) output
      rw [Nat.add_assoc] at hcursor
      rw [hrunLength] at hnext
      rw [blockedRuns_repeated hrow hrun,checkedDictionaryIdI32_eq (hknown id hid),hcount,hrunLength,hrunIds]
      simp only [Except.bind,hout,hnext hcursor]
    | packed packedIds =>
      obtain ⟨start,hpacked,hinside,hstep⟩ := blockedRuns_packed dictionaryLen hrow hrun cursor output
      have htake : bitFields (leNat data) w (8 * start) (min packedIds.length ids.length) = packedIds.take ids.length := by
        rw [← bitFields_take _ _ _ (Nat.min_le_left ..),← hpacked,List.take_eq_take_iff]
        omega
      have hbits : 8 * start + min packedIds.length ids.length * w ≤ 8 * pos' :=
        (Nat.add_le_add_left (Nat.mul_le_mul_right _ (Nat.min_le_left ..)) _).trans hinside
      obtain ⟨cursor',hout,hcursor⟩ := idBlocks_eq hbits le_rfl h (by rwa [htake]) output
      rw [Nat.add_assoc] at hcursor
      rw [htake] at hout
      rw [hstep,hcount]
      simp only [Except.bind,hout,PageRun.ids]
      exact hnext hcursor _

end Runs

section Agree
variable {p : ℕ → Prop} [DecidablePred p] {w : UInt8} {body : List UInt8} {ids : List ℕ} {dictionaryLen pageRowStart pageRows : ℕ}
  {all : List ℤ} {runs : List (ℕ × ℕ)}

theorem decodeSelectedRanges_eq (hw : w.toNat ≤ 32) (hbody : HybridEncodes w.toNat body ids) (hids : ∀ id ∈ ids, id < dictionaryLen)
    (hrows : pageRows ≤ ids.length) (hruns : Marks p runs) (output : List ℤ) :
    decodeDictionaryIndicesSelectedRanges ids.length dictionaryLen pageRowStart pageRows (w :: body) runs output =
      .ok (output ++ selectAt p pageRowStart ((ids.map asI32).take pageRows)) := by
  obtain ⟨padding,hhybrid⟩ := hbody
  have hranges := hruns.rangesOf pageRowStart pageRows
  have hlen : (ids.take pageRows).length = pageRows := List.length_take_of_le hrows
  have hfirst : RangesOf (fun i => p (pageRowStart + i)) (ids.take pageRows).length 0
      (localRanges pageRowStart pageRows runs) := hlen.symm ▸ hranges
  have hselect := hfirst.selectAt_eq rfl (Nat.zero_le _)
  rw [List.drop_zero,selectAt_add,Nat.add_zero,← hfirst.slice_append (ids.drop pageRows),
    List.take_append_drop] at hselect
  rw [decodeDictionaryIndicesSelectedRanges,if_neg (Nat.not_lt.mpr hw),
    selectedRanges_eq hids hrows hranges (remaining_new hw hhybrid),← hselect,← List.map_take,selectAt_map]

theorem decodeSelectedRangesBlocked_eq (hw : w.toNat ≤ 32) (hbody : HybridEncodes w.toNat body ids)
    (hids : ∀ id ∈ ids, id < dictionaryLen ∧ id < 2 ^ 31) (hruns : Marks p runs) (output : List ℤ) :
    decodeDictionaryIndicesSelectedRangesBlocked (w :: body) ids.length dictionaryLen runs pageRowStart pageRows output =
      if pageRows = ids.length then .ok (true,output ++ selectAt p pageRowStart (ids.map asI32)) else .ok (false,output) := by
  obtain ⟨padding,hhybrid⟩ := hbody
  rw [decodeDictionaryIndicesSelectedRangesBlocked]
  by_cases hrows : pageRows = ids.length
  · obtain ⟨found,hat,hflat,hpos⟩ := runsAt_of_hybridRuns hhybrid (List.drop_zero (l := body))
    rw [if_neg (not_not.mpr hrows.symm),if_neg (Nat.not_lt.mpr hw),if_pos hrows,
      blockedRuns_eq hat (Nat.lt_succ_of_le (Nat.sub_le ..)) hflat hpos (Nat.zero_add _) hids
        (cursorAt_of_marks hruns _) output,Nat.add_zero,selectAt_map]
  · rw [if_pos (Ne.symm hrows),if_neg hrows]

theorem decodeSelectedNullableRanges_eq {levels : List ℤ} {maxDefLevel : ℤ} (hw : w.toNat ≤ 32)
    (hbody : HybridEncodes w.toNat body ids) (hids : ∀ id ∈ ids, id < dictionaryLen) (hlen : levels.length = pageRows)
    (hcount : levels.count maxDefLevel = ids.length) (hruns : Marks p runs) (output : List ℤ) :
    decodeDictionaryIndicesSelectedNullableRanges maxDefLevel ids.length dictionaryLen pageRowStart pageRows (w :: body)
        runs levels output =
      .ok (output ++ (selectAt p pageRowStart (rowIds (presentFlags maxDefLevel levels) ids)).map deliveredId) := by
  obtain ⟨padding,hhybrid⟩ := hbody
  have hranges := hruns.rangesOf pageRowStart pageRows
  have hlength : (rowIds (presentFlags maxDefLevel levels) ids).length = pageRows := by
    rw [length_rowIds,presentFlags,List.length_map,hlen]
  have hselect := hranges.selectAt_eq hlength (Nat.zero_le _)
  rw [List.drop_zero,selectAt_add,Nat.add_zero] at hselect
  have hscan := selectedNullableRanges_eq hids hlen hcount hranges (remaining_new hw hhybrid) output
  rw [decodeDictionaryIndicesSelectedNullableRanges,if_neg (not_not.mpr hlen),if_neg (Nat.not_lt.mpr hw),hselect]
  exact hscan

/-- The three ways to decode selected ids give those of the selected rows, out of all ids of the page. -/
theorem selectedIds_agree (hw : w.toNat ≤ 32) (hbody : HybridEncodes w.toNat body ids)
    (hall : decodeDictionaryIndices (w :: body) ids.length dictionaryLen [] = .ok all) (hruns : Marks p runs)
    (output : List ℤ) :
    (pageRows ≤ ids.length →
      decodeDictionaryIndicesSelectedRanges ids.length dictionaryLen pageRowStart pageRows (w :: body) runs output =
        .ok (output ++ selectAt p pageRowStart (all.take pageRows))) ∧
    decodeDictionaryIndicesSelectedRangesBlocked (w :: body) ids.length dictionaryLen runs pageRowStart pageRows output =
      (if pageRows = ids.length then .ok (true,output ++ selectAt p pageRowStart all) else .ok (false,output)) ∧
    ∀ (levels : List ℤ) (maxDefLevel : ℤ), levels.length = pageRows → levels.count maxDefLevel = ids.length →
      decodeDictionaryIndicesSelectedNullableRanges maxDefLevel ids.length dictionaryLen pageRowStart pageRows (w :: body)
          runs levels output =
        .ok (output ++ selectAt p pageRowStart
          ((rowIds (levels.map (· == maxDefLevel)) all).map fun id => id.getD (-1))) := by
  obtain ⟨rfl,hids⟩ := decodeDictionaryIndices_ok hw hbody hall
  have hknown : ∀ id ∈ ids, id < dictionaryLen := fun id hid => (hids id hid).1
  refine ⟨fun hrows => decodeSelectedRanges_eq hw hbody hknown hrows hruns output,
    decodeSelectedRangesBlocked_eq hw hbody hids hruns output,fun levels maxDefLevel hlen hcount => ?_⟩
  have hdelivered : (rowIds (presentFlags maxDefLevel levels) (ids.map asI32)).map (fun id => id.getD (-1)) =
      (rowIds (presentFlags maxDefLevel levels) ids).map deliveredId := by
    rw [rowIds_map,List.map_map]
    refine List.map_congr_left fun id _ => ?_
    cases id with
    | none => rfl
    | some id => rw [deliveredId_some,Function.comp_apply,Option.map_some,Option.getD_some]
  rw [← presentFlags,hdelivered,selectAt_map]
  exact decodeSelectedNullableRanges_eq hw hbody hknown hlen hcount hruns output

/-- A page of eight rows from row 100 on, with runs that reach beyond it on both sides. -/
theorem selectedIds_agree_sample :
    (8 ≤ 8 →
      decodeDictionaryIndicesSelectedRanges 8 4 100 8 [2,3,0xe4,0xe4] [(99,2),(103,2),(107,2)] [] =
        .ok ([] ++ selectAt (inIntervals [(99,2),(103,2),(107,2)] · = true) 100 (([0,1,2,3,0,1,2,3].map asI32).take 8))) ∧
    decodeDictionaryIndicesSelectedRangesBlocked [2,3,0xe4,0xe4] 8 4 [(99,2),(103,2),(107,2)] 100 8 [] =
      (if 8 = 8 then .ok (true,[] ++ selectAt (inIntervals [(99,2),(103,2),(107,2)] · = true) 100 ([0,1,2,3,0,1,2,3].map asI32))
        else .ok (false,[])) ∧
    ∀ (levels : List ℤ) (maxDefLevel : ℤ), levels.length = 8 → levels.count maxDefLevel = 8 →
      decodeDictionaryIndicesSelectedNullableRanges maxDefLevel 8 4 100 8 [2,3,0xe4,0xe4] [(99,2),(103,2),(107,2)]
          levels [] =
        .ok ([] ++ selectAt (inIntervals [(99,2),(103,2),(107,2)] · = true) 100
          ((rowIds (levels.map (· == maxDefLevel)) ([0,1,2,3,0,1,2,3].map asI32)).map fun id => id.getD (-1))) := by
  have hrun : HybridRun 2 ([3] ++ [0xe4,0xe4]) [0,1,2,3,0,1,2,3] :=
    .packed (n := 1) (headerBytes_singleton rfl (by decide)) rfl
  have hbody : HybridEncodes 2 [3,0xe4,0xe4] [0,1,2,3,0,1,2,3] := ⟨[],.cons hrun .nil⟩
  have hids : ∀ id ∈ [0,1,2,3,0,1,2,3], id < 4 ∧ id < 2 ^ 31 := by simp
  have hall := decodeDictionaryIndices_eq (w := 2) (by decide) hbody hids
  exact selectedIds_agree (w := 2) (by decide) hbody hall (marks_inIntervals (by decide) (by decide)) []

end Agree
end Dodam.Storage.Encoded
