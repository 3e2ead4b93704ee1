import Dodam.Execution.HashJoin.Attempts

/-! # The dense attempt on pairs of Int32 keys

A pair is placed by its row-major offset inside the bounds of both columns.
-/
namespace Dodam.Execution
open Foundation

section Scan
variable {α : Type} {collectAllRows : Bool} {batches : List (RecordBatch α)} {p : BuildRowRef × Row α}

theorem pairScanRow_ok (scan : DenseI32PairScan) (h : p.1.row < 2 ^ 32) :
    scan.row collectAllRows p.1 p.2 = .ok (match int32PairLayout.read p.2.key with
        | none => { scan with
          allRows := if collectAllRows then scan.allRows ++ [p.1] else scan.allRows }
        | some value => ⟨min scan.minLeft value.1.toInt,max scan.maxLeft value.1.toInt,
          min scan.minRight value.2.toInt,max scan.maxRight value.2.toInt,scan.nonNullRows + 1,
          if collectAllRows then scan.allRows ++ [p.1] else scan.allRows⟩) := by
  unfold DenseI32PairScan.row u32TryFrom
  rw [if_pos h,except_bind_ok]
  cases int32PairLayout.read p.2.key <;> rfl

structure PairScanInv (collectAllRows : Bool) (seen : List (BuildRowRef × Row α))
    (scan : DenseI32PairScan) : Prop where
  allRows_eq : scan.allRows = if collectAllRows then seen.map Prod.fst else []
  nonNullRows_eq : scan.nonNullRows = (keyEntries int32PairLayout.read seen).length
  bounds : ∀ e ∈ keyEntries int32PairLayout.read seen,
    scan.minLeft ≤ e.1.1.toInt ∧ e.1.1.toInt ≤ scan.maxLeft ∧
      scan.minRight ≤ e.1.2.toInt ∧ e.1.2.toInt ≤ scan.maxRight

theorem pairScanInv_init : PairScanInv collectAllRows ([] : List (BuildRowRef × Row α)) .init where
  allRows_eq := by cases collectAllRows <;> rfl
  nonNullRows_eq := rfl
  bounds e he := by simp [keyEntries] at he

theorem PairScanInv.row {seen : List (BuildRowRef × Row α)} {scan : DenseI32PairScan}
    (h : PairScanInv collectAllRows seen scan) (hrow : p.1.row < 2 ^ 32) :
    ∃ scan', scan.row collectAllRows p.1 p.2 = .ok scan' ∧
      PairScanInv collectAllRows (seen ++ [p]) scan' := by
  refine ⟨_,pairScanRow_ok scan hrow,?_⟩
  have hall : (if collectAllRows then scan.allRows ++ [p.1] else scan.allRows) =
      if collectAllRows then (seen ++ [p]).map Prod.fst else [] := by
    rw [h.allRows_eq]
    cases collectAllRows <;> simp
  cases hp : int32PairLayout.read p.2.key with
  | none =>
    have he : keyEntries int32PairLayout.read (seen ++ [p]) = keyEntries int32PairLayout.read seen :=
      keyEntries_snoc_none hp
    exact ⟨hall,by rw [he]; exact h.nonNullRows_eq,by rw [he]; exact h.bounds⟩
  | some value =>
    have he : keyEntries int32PairLayout.read (seen ++ [p]) =
        keyEntries int32PairLayout.read seen ++ [(value,p.1)] := keyEntries_snoc_some hp
    refine ⟨hall,?_,?_⟩
    · rw [he,List.length_append,← h.nonNullRows_eq]
      rfl
    · intro e hm
      rw [he] at hm
      dsimp only
      rcases List.mem_append.mp hm with hm | hm
      · have := h.bounds e hm
        omega
      · rw [List.mem_singleton.mp hm]
        dsimp only
        omega

theorem pairScanBatches_eq (ht : Typed [.int32,.int32] batches) :
    DenseI32PairScan.batches collectAllRows batches =
      some <$> (rowRefs batches).foldlM
        (fun scan p => DenseI32PairScan.row collectAllRows scan p.1 p.2) DenseI32PairScan.init := by
  rw [← forEachRow_eq]
  refine foldlM_some ?_ _
  rintro ⟨batch,i⟩ hb scan
  have hm : batch ∈ batches := List.fst_mem_of_mem_zipIdx hb
  dsimp only
  rw [if_neg (not_not.mpr (ht batch hm))]

variable (collectAllRows) in
theorem pairScanBatches_ok (ht : Typed [.int32,.int32] batches) (ha : Addressable batches) :
    ∃ scan, DenseI32PairScan.batches collectAllRows batches = .ok (some scan) ∧
      PairScanInv collectAllRows (rowRefs batches) scan := by
  obtain ⟨scan,hs,hinv⟩ := foldlM_total (PairScanInv collectAllRows) (s := DenseI32PairScan.init)
    (f := fun scan p => DenseI32PairScan.row collectAllRows scan p.1 p.2) (l := rowRefs batches)
    pairScanInv_init fun seen p rest scan hl hinv => hinv.row (ha.row_lt (by rw [hl]; simp))
  exact ⟨scan,by rw [pairScanBatches_eq ht,hs]; rfl,hinv⟩

variable (collectAllRows) in
theorem pairScanBatches_error (ht : Typed [.int32,.int32] batches) (ha : ¬ Addressable batches) :
    ∃ e, DenseI32PairScan.batches collectAllRows batches = .error e := by
  obtain ⟨p,hp,hrow⟩ := exists_of_not_addressable ha
  obtain ⟨e,he⟩ := foldlM_error (fun _ => True)
    (f := fun scan p => DenseI32PairScan.row collectAllRows scan p.1 p.2)
    (fun _ _ _ _ _ => trivial) hp (fun scan _ => by
      unfold DenseI32PairScan.row u32TryFrom
      rw [if_neg (not_lt.mpr hrow)]
      exact ⟨_,rfl⟩) (s := DenseI32PairScan.init) trivial
  exact ⟨e,by rw [pairScanBatches_eq ht,he]; rfl⟩

end Scan

section Slots
variable {α : Type} {batches : List (RecordBatch α)}
variable {minLeft minRight : ℤ} {leftWidth rightWidth : ℕ}

structure PairSlots (minLeft minRight : ℤ) (leftWidth rightWidth : ℕ)
    (seen : List (BuildRowRef × Row α)) (dense : List (Option BuildRowRef))
    (entries : List (ℕ × BuildRowRef)) : Prop where
  offsets : List.Forall₂ (fun e e' =>
    denseI32PairIndex e.1.1.toInt e.1.2.toInt minLeft minRight rightWidth = some e'.1 ∧
      e'.2 = e.2) (keyEntries int32PairLayout.read seen) entries
  filled : Filled (leftWidth * rightWidth) entries dense
  nodup : (entries.map Prod.fst).Nodup

/-- Unless the pass has given up, the pairs seen are in the array. -/
def PairSlotsInv (minLeft minRight : ℤ) (leftWidth rightWidth : ℕ)
    (seen : List (BuildRowRef × Row α)) (state : Option (List (Option BuildRowRef))) : Prop :=
  ∀ dense, state = some dense →
    ∃ entries, PairSlots minLeft minRight leftWidth rightWidth seen dense entries

theorem pairSlotsInv_none (seen : List (BuildRowRef × Row α)) :
    PairSlotsInv minLeft minRight leftWidth rightWidth seen none := by
  intro dense h
  cases h

theorem pairSlotsInv_init :
    PairSlotsInv minLeft minRight leftWidth rightWidth ([] : List (BuildRowRef × Row α))
      (some (List.replicate (leftWidth * rightWidth) none)) := by
  rintro dense ⟨⟩
  exact ⟨[],⟨.nil,filled_nil _,List.nodup_nil⟩⟩

theorem PairSlotsInv.row {seen : List (BuildRowRef × Row α)}
    {state : Option (List (Option BuildRowRef))}
    (h : PairSlotsInv minLeft minRight leftWidth rightWidth seen state)
    {p : BuildRowRef × Row α} (hrow : p.1.row < 2 ^ 32)
    (hkey : ∀ k, int32PairLayout.read p.2.key = some k → (k.1.toInt - minLeft).toNat < leftWidth) :
    ∃ state', denseI32PairRow minLeft minRight rightWidth state p.1 p.2 = .ok state' ∧
      PairSlotsInv minLeft minRight leftWidth rightWidth (seen ++ [p]) state' := by
  cases state with
  | none => exact ⟨none,rfl,pairSlotsInv_none _⟩
  | some dense =>
    obtain ⟨entries,he⟩ := h dense rfl
    cases hp : int32PairLayout.read p.2.key with
    | none =>
      refine ⟨some dense,by simp only [denseI32PairRow,hp],?_⟩
      rintro dense' ⟨⟩
      exact ⟨entries,by rw [keyEntries_snoc_none hp]; exact he.offsets,he.filled,he.nodup⟩
    | some k =>
      cases hi : denseI32PairIndex k.1.toInt k.2.toInt minLeft minRight rightWidth with
      | none => exact ⟨none,by simp only [denseI32PairRow,hp,hi],pairSlotsInv_none _⟩
      | some index =>
        have hlt := denseI32PairIndex_lt hi (hkey k hp)
        have hin : index < dense.length := by
          rw [he.filled.length_eq]
          exact hlt
        have hget : dense[index]? = some dense[index] :=
          List.getElem?_eq_getElem _
        cases hd : dense[index] with
        | some r =>
          rw [hd] at hget
          exact ⟨none,by simp only [denseI32PairRow,hp,hi,hget],pairSlotsInv_none _⟩
        | none =>
          rw [hd] at hget
          refine ⟨some (dense.set index (some p.1)),?_,?_⟩
          · unfold denseI32PairRow u32TryFrom
            simp only [hp,hi,hget,if_pos hrow,except_bind_ok]
            rfl
          · rintro dense' ⟨⟩
            refine ⟨entries ++ [(index,p.1)],?_,he.filled.step hlt,?_⟩
            · rw [keyEntries_snoc_some hp]
              exact List.rel_append he.offsets (.cons ⟨hi,rfl⟩ .nil)
            · rw [List.map_append,List.nodup_append]
              refine ⟨he.nodup,by simp,?_⟩
              intro a ha b hb hab
              rw [List.map_singleton,List.mem_singleton] at hb
              subst hab hb
              obtain ⟨⟨i,r⟩,hm,hir⟩ := List.mem_map.mp ha
              have hfull := (he.filled.mem he.nodup i r).mpr hm
              dsimp only at hir
              rw [hir,hget] at hfull
              cases hfull

variable (minLeft minRight leftWidth rightWidth) in
theorem pairSlotsRun_ok (ha : Addressable batches)
    (hkeys : ∀ e ∈ keyEntries int32PairLayout.read (rowRefs batches),
      (e.1.1.toInt - minLeft).toNat < leftWidth) :
    ∃ state, forEachRow (denseI32PairRow minLeft minRight rightWidth)
        (some (List.replicate (leftWidth * rightWidth) none)) batches = .ok state ∧
      PairSlotsInv minLeft minRight leftWidth rightWidth (rowRefs batches) state := by
  rw [forEachRow_eq]
  refine foldlM_total (PairSlotsInv minLeft minRight leftWidth rightWidth) pairSlotsInv_init ?_
  intro seen p rest state hl hinv
  have hp : p ∈ rowRefs batches := by
    rw [hl]
    simp
  refine hinv.row (ha.row_lt hp) fun k hk => ?_
  exact hkeys (k,p.1) (mem_keyEntries.mpr ⟨p,hp,rfl,hk⟩)

variable {entries : List (ℕ × BuildRowRef)}

theorem nodup_of_pairIndices {l : List ((Int32 × Int32) × BuildRowRef)}
    (h : List.Forall₂ (fun e e' =>
      denseI32PairIndex e.1.1.toInt e.1.2.toInt minLeft minRight rightWidth = some e'.1 ∧
        e'.2 = e.2) l entries) (hn : (entries.map Prod.fst).Nodup) : (l.map Prod.fst).Nodup := by
  induction h with
  | nil => exact List.nodup_nil
  | @cons e e' l entries hab hrest ih =>
    rw [List.map_cons,List.nodup_cons] at hn ⊢
    refine ⟨?_,ih hn.2⟩
    intro hm
    obtain ⟨x,hx,he⟩ := List.mem_map.mp hm
    obtain ⟨x',hx',hidx,-⟩ := exists_of_forall₂_left hrest hx
    rw [he,hab.1] at hidx
    exact hn.1 (List.mem_map.mpr ⟨x',hx',(Option.some.inj hidx).symm⟩)

theorem PairSlots.serves {dense : List (Option BuildRowRef)}
    (h : PairSlots minLeft minRight leftWidth rightWidth (rowRefs batches) dense entries)
    {slots : DenseSlots BuildRowRef} (hslots : ∀ i, slots.get i = dense[i]?.join) :
    Serves int32PairLayout [.int32,.int32] (rowRefs batches) fun k =>
      ((⟨minLeft,minRight,rightWidth,slots⟩ : DenseI32PairBuildRows).get k).map fun r => [r] := by
  refine ⟨rfl,answers_of_entries (nodup_of_pairIndices h.offsets h.nodup) fun k r => ?_⟩
  exact getPair_eq_some_iff h.offsets h.nodup h.filled hslots k r

end Slots

section Attempt
variable {α : Type} {batches : List (RecordBatch α)} {hashRowWithSalt : RowHash}
variable {collectAllRows : Bool}

variable (hashRowWithSalt collectAllRows) in
/-- The attempt is refused or leaves a valid build. -/
theorem tryBuildDenseI32Pair_ok (ht : Typed [.int32,.int32] batches) (ha : Addressable batches) :
    ∃ o, tryBuildDenseI32PairHashJoinInput batches collectAllRows = .ok o ∧
      ∀ build, o = some build →
        build.Valid hashRowWithSalt .fastSingleKey collectAllRows batches [.int32,.int32] ∧
        build.i32DenseUniqueRows = none := by
  have hnone : ∀ build : HashJoinBuild α, none = some build →
      build.Valid hashRowWithSalt .fastSingleKey collectAllRows batches [.int32,.int32] ∧
        build.i32DenseUniqueRows = none := by
    intro build h
    cases h
  obtain ⟨scan,hscan,hinv⟩ := pairScanBatches_ok collectAllRows ht ha
  unfold tryBuildDenseI32PairHashJoinInput
  rw [hscan,except_bind_ok]
  dsimp only
  split_ifs
  · exact ⟨none,rfl,hnone⟩
  · exact ⟨none,rfl,hnone⟩
  · exact ⟨none,rfl,hnone⟩
  · obtain ⟨state,hrun,hslots⟩ := pairSlotsRun_ok scan.minLeft scan.minRight
      (scan.maxLeft - scan.minLeft + 1).toNat (scan.maxRight - scan.minRight + 1).toNat ha
      fun e he => by
        have hb := hinv.bounds e he
        omega
    rw [hrun,except_bind_ok]
    cases state with
    | none => exact ⟨none,rfl,hnone⟩
    | some dense =>
      obtain ⟨entries,he⟩ := hslots dense rfl
      have hcount : dense.countP Option.isSome = scan.nonNullRows := by
        rw [he.filled.count he.nodup,hinv.nonNullRows_eq,he.offsets.length_eq]
      obtain ⟨slots,hp,-,hget⟩ := packDense_spec hcount
      refine ⟨_,by dsimp only; rw [hp]; rfl,?_⟩
      rintro build ⟨⟩
      refine ⟨?_,rfl⟩
      refine valid_of_dense hinv.allRows_eq rfl (fun d hd => by cases hd) (fun d hd => by cases hd)
        ?_ (Or.inr (Or.inr rfl))
      rintro d ⟨⟩
      exact he.serves hget

variable (collectAllRows) in
theorem tryBuildDenseI32Pair_error (ht : Typed [.int32,.int32] batches)
    (ha : ¬ Addressable batches) :
    ∃ e, tryBuildDenseI32PairHashJoinInput batches collectAllRows = .error e := by
  obtain ⟨e,he⟩ := pairScanBatches_error collectAllRows ht ha
  unfold tryBuildDenseI32PairHashJoinInput
  rw [he]
  exact ⟨e,rfl⟩

end Attempt
end Dodam.Execution
