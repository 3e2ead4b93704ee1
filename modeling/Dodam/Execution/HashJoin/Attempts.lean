import Dodam.Execution.HashJoin.Valid

/-! # The dense attempts of a build

The first pass over Int32 keys finds their bounds, the second fills an array of reference lists
by offset.
-/
namespace Dodam.Execution
open Foundation

section Entries
variable {α κ : Type} [DecidableEq κ] (read : List (Option KeyValue) → Option κ)

def keyEntries (seen : List (BuildRowRef × Row α)) : List (κ × BuildRowRef) :=
  seen.filterMap fun p => (read p.2.key).map fun k => (k,p.1)

variable {read} {seen : List (BuildRowRef × Row α)} {p : BuildRowRef × Row α}

omit [DecidableEq κ] in
theorem keyEntries_snoc_none (h : read p.2.key = none) :
    keyEntries read (seen ++ [p]) = keyEntries read seen := by
  simp [keyEntries,h]
omit [DecidableEq κ] in
theorem keyEntries_snoc_some {k : κ} (h : read p.2.key = some k) :
    keyEntries read (seen ++ [p]) = keyEntries read seen ++ [(k,p.1)] := by
  simp [keyEntries,h]
omit [DecidableEq κ] in
theorem mem_keyEntries {k : κ} {r : BuildRowRef} :
    (k,r) ∈ keyEntries read seen ↔ ∃ p ∈ seen, p.1 = r ∧ read p.2.key = some k := by
  unfold keyEntries
  rw [List.mem_filterMap]
  constructor
  · rintro ⟨p,hp,he⟩
    obtain ⟨k',hk,he⟩ := Option.map_eq_some_iff.mp he
    cases he
    exact ⟨p,hp,rfl,hk⟩
  · rintro ⟨p,hp,rfl,hk⟩
    exact ⟨p,hp,by rw [hk]; rfl⟩

theorem count_keyEntries (k : κ) :
    ((keyEntries read seen).map Prod.fst).count k = (refsOf read seen k).length := by
  induction seen using List.reverseRecOn with
  | nil => rfl
  | append_singleton seen p ih =>
    cases hp : read p.2.key with
    | none => rw [keyEntries_snoc_none hp,refsOf_snoc_of_ne read (by rw [hp]; simp),ih]
    | some k' =>
      rw [keyEntries_snoc_some hp,List.map_append,List.count_append,ih]
      by_cases hk : k' = k
      · subst hk
        rw [refsOf_snoc_of_eq read hp]
        simp
      · rw [refsOf_snoc_of_ne read (by rw [hp]; simpa using hk)]
        simp [hk]

theorem refsOf_eq_nil_iff_notMem {k : κ} :
    refsOf read seen k = [] ↔ k ∉ (keyEntries read seen).map Prod.fst := by
  rw [← List.count_eq_zero,count_keyEntries,List.length_eq_zero_iff]

/-- A layout of single references answers when it finds exactly the entries and no key repeats. -/
theorem answers_of_entries (hn : ((keyEntries read seen).map Prod.fst).Nodup)
    {find : κ → Option BuildRowRef} (h : ∀ k v, find k = some v ↔ (k,v) ∈ keyEntries read seen) :
    Answers read seen fun k => (find k).map fun r => [r] := by
  intro k
  have hmem : ∀ r, r ∈ refsOf read seen k ↔ find k = some r := by
    intro r
    rw [h k r,mem_keyEntries,mem_refsOf]
    constructor
    · rintro ⟨row,hm,hk⟩
      exact ⟨(r,row),hm,rfl,hk⟩
    · rintro ⟨p,hp,rfl,hk⟩
      exact ⟨p.2,hp,hk⟩
  have hlen : (refsOf read seen k).length ≤ 1 := by
    rw [← count_keyEntries]
    exact List.nodup_iff_count_le_one.mp hn k
  match hr : refsOf read seen k with
  | [] =>
    cases hf : find k with
    | none =>
      simp only [hf]
      rfl
    | some v =>
      have hv := (hmem v).mpr hf
      rw [hr] at hv
      simp at hv
  | [r] =>
    have hf := (hmem r).mp (by rw [hr]; exact List.mem_singleton_self r)
    simp only [hf,Option.map_some]
    rfl
  | _ :: _ :: _ =>
    rw [hr] at hlen
    simp at hlen

end Entries

section Scan
variable {α : Type} {collectAllRows : Bool} {batches : List (RecordBatch α)}

theorem scanRow_ok (scan : DenseI32Scan) {p : BuildRowRef × Row α} (h : p.1.row < 2 ^ 32) :
    scan.row collectAllRows p.1 p.2 =
      .ok (match int32Layout.read p.2.key with
        | none => { scan with
          allRows := if collectAllRows then scan.allRows ++ [p.1] else scan.allRows }
        | some value => ⟨min scan.minKey value.toInt,max scan.maxKey value.toInt,
          scan.nonNullRows + 1,if collectAllRows then scan.allRows ++ [p.1] else scan.allRows⟩) := by
  unfold DenseI32Scan.row u32TryFrom
  rw [if_pos h,except_bind_ok]
  cases int32Layout.read p.2.key <;> rfl

/-- The bounds of the keys seen; without keys, the initial ones. -/
structure ScanInv (collectAllRows : Bool) (seen : List (BuildRowRef × Row α)) (scan : DenseI32Scan) :
    Prop where
  allRows_eq : scan.allRows = if collectAllRows then seen.map Prod.fst else []
  nonNullRows_eq : scan.nonNullRows = (keyEntries int32Layout.read seen).length
  init_bounds : keyEntries int32Layout.read seen = [] →
    scan.minKey = 2 ^ 31 - 1 ∧ scan.maxKey = -2 ^ 31
  bounds : ∀ e ∈ keyEntries int32Layout.read seen,
    scan.minKey ≤ e.1.toInt ∧ e.1.toInt ≤ scan.maxKey
  attained : keyEntries int32Layout.read seen ≠ [] →
    (∃ e ∈ keyEntries int32Layout.read seen, e.1.toInt = scan.minKey) ∧
      ∃ e ∈ keyEntries int32Layout.read seen, e.1.toInt = scan.maxKey

theorem scanInv_init : ScanInv collectAllRows ([] : List (BuildRowRef × Row α)) .init where
  allRows_eq := by cases collectAllRows <;> rfl
  nonNullRows_eq := rfl
  init_bounds _ := ⟨rfl,rfl⟩
  bounds e he := by simp [keyEntries] at he
  attained h := absurd rfl h

variable {scan : DenseI32Scan}

theorem ScanInv.row {seen : List (BuildRowRef × Row α)}
    (h : ScanInv collectAllRows seen scan) {p : BuildRowRef × Row α} (hrow : p.1.row < 2 ^ 32) :
    ∃ scan', scan.row collectAllRows p.1 p.2 = .ok scan' ∧
      ScanInv collectAllRows (seen ++ [p]) scan' := by
  refine ⟨_,scanRow_ok scan hrow,?_⟩
  have hall : (if collectAllRows then scan.allRows ++ [p.1] else scan.allRows) =
      if collectAllRows then (seen ++ [p]).map Prod.fst else [] := by
    rw [h.allRows_eq]
    cases collectAllRows <;> simp
  cases hp : int32Layout.read p.2.key with
  | none =>
    have he : keyEntries int32Layout.read (seen ++ [p]) = keyEntries int32Layout.read seen :=
      keyEntries_snoc_none hp
    exact ⟨hall,by rw [he]; exact h.nonNullRows_eq,by rw [he]; exact h.init_bounds,
      by rw [he]; exact h.bounds,by rw [he]; exact h.attained⟩
  | some value =>
    have he : keyEntries int32Layout.read (seen ++ [p]) =
        keyEntries int32Layout.read seen ++ [(value,p.1)] := keyEntries_snoc_some hp
    refine ⟨hall,?_,?_,?_,?_⟩
    · rw [he,List.length_append,← h.nonNullRows_eq]
      rfl
    · intro hnil
      rw [he] at hnil
      simp at hnil
    · intro e hm
      rw [he] at hm
      dsimp only
      rcases List.mem_append.mp hm with hm | hm
      · have := h.bounds e hm
        omega
      · rw [List.mem_singleton.mp hm]
        dsimp only
        omega
    · intro _
      rw [he]
      dsimp only
      have hvl := value.toInt_lt
      have hvm := value.le_toInt
      by_cases hnil : keyEntries int32Layout.read seen = []
      · obtain ⟨h1,h2⟩ := h.init_bounds hnil
        rw [hnil]
        refine ⟨⟨(value,p.1),by simp,?_⟩,⟨(value,p.1),by simp,?_⟩⟩ <;> dsimp only <;> omega
      · obtain ⟨⟨e,hem,hmin⟩,⟨e',hem',hmax⟩⟩ := h.attained hnil
        constructor
        · rcases le_total scan.minKey value.toInt with hle | hle
          · exact ⟨e,List.mem_append_left _ hem,by rw [min_eq_left hle,hmin]⟩
          · exact ⟨(value,p.1),by simp,(min_eq_right hle).symm⟩
        · rcases le_total scan.maxKey value.toInt with hle | hle
          · exact ⟨(value,p.1),by simp,(max_eq_right hle).symm⟩
          · exact ⟨e',List.mem_append_left _ hem',by rw [max_eq_left hle,hmax]⟩

theorem scanBatches_eq (ht : Typed [.int32] batches) :
    DenseI32Scan.batches collectAllRows batches =
      some <$> (rowRefs batches).foldlM
        (fun scan p => DenseI32Scan.row collectAllRows scan p.1 p.2) DenseI32Scan.init := by
  rw [← forEachRow_eq]
  refine foldlM_some ?_ _
  rintro ⟨batch,i⟩ hb scan
  have hm : batch ∈ batches := List.fst_mem_of_mem_zipIdx hb
  dsimp only
  rw [if_neg (not_not.mpr (ht batch hm))]

variable (collectAllRows) in
theorem scanBatches_ok (ht : Typed [.int32] batches) (ha : Addressable batches) :
    ∃ scan, DenseI32Scan.batches collectAllRows batches = .ok (some scan) ∧
      ScanInv collectAllRows (rowRefs batches) scan := by
  obtain ⟨scan,hs,hinv⟩ := foldlM_total (ScanInv collectAllRows) (s := DenseI32Scan.init)
    (f := fun scan p => DenseI32Scan.row collectAllRows scan p.1 p.2) (l := rowRefs batches)
    scanInv_init fun seen p rest scan hl hinv => hinv.row (ha.row_lt (by rw [hl]; simp))
  exact ⟨scan,by rw [scanBatches_eq ht,hs]; rfl,hinv⟩

variable (collectAllRows) in
theorem scanBatches_error (ht : Typed [.int32] batches) (ha : ¬ Addressable batches) :
    ∃ e, DenseI32Scan.batches collectAllRows batches = .error e := by
  obtain ⟨p,hp,hrow⟩ := exists_of_not_addressable ha
  obtain ⟨e,he⟩ := foldlM_error (fun _ => True)
    (f := fun scan p => DenseI32Scan.row collectAllRows scan p.1 p.2)
    (fun _ _ _ _ _ => trivial) hp (fun scan _ => by
      unfold DenseI32Scan.row u32TryFrom
      rw [if_neg (not_lt.mpr hrow)]
      exact ⟨_,rfl⟩) (s := DenseI32Scan.init) trivial
  exact ⟨e,by rw [scanBatches_eq ht,he]; rfl⟩

theorem int32Keys_eq_map_keyEntries (batches : List (RecordBatch α)) :
    int32Keys (inputRows batches) =
      (keyEntries int32Layout.read (rowRefs batches)).map fun e => e.1.toInt := by
  unfold int32Keys inputRows keyEntries
  rw [← map_snd_rowRefs,List.filterMap_map,List.map_filterMap]
  congr 1
  funext p
  rw [Function.comp,Option.map_map]
  rfl

theorem ScanInv.nonNullRows_eq_zero (h : ScanInv collectAllRows (rowRefs batches) scan) :
    scan.nonNullRows = 0 ↔ int32Keys (inputRows batches) = [] := by
  rw [h.nonNullRows_eq,List.length_eq_zero_iff,int32Keys_eq_map_keyEntries,List.map_eq_nil_iff]

theorem ScanInv.span (h : ScanInv collectAllRows (rowRefs batches) scan)
    (hne : scan.nonNullRows ≠ 0) :
    (scan.maxKey - scan.minKey + 1).toNat = keySpan (int32Keys (inputRows batches)) := by
  have hentries : keyEntries int32Layout.read (rowRefs batches) ≠ [] := by
    rw [h.nonNullRows_eq] at hne
    simpa using hne
  obtain ⟨⟨e,he,hmin⟩,⟨e',he',hmax⟩⟩ := h.attained hentries
  have hmin' : (int32Keys (inputRows batches)).min? = some scan.minKey := by
    rw [List.min?_eq_some_iff,int32Keys_eq_map_keyEntries]
    refine ⟨List.mem_map.mpr ⟨e,he,hmin⟩,fun x hx => ?_⟩
    obtain ⟨e'',he'',rfl⟩ := List.mem_map.mp hx
    exact (h.bounds e'' he'').1
  have hmax' : (int32Keys (inputRows batches)).max? = some scan.maxKey := by
    rw [List.max?_eq_some_iff,int32Keys_eq_map_keyEntries]
    refine ⟨List.mem_map.mpr ⟨e',he',hmax⟩,fun x hx => ?_⟩
    obtain ⟨e'',he'',rfl⟩ := List.mem_map.mp hx
    exact (h.bounds e'' he'').2
  rw [(keySpan_of_bounds hmin' hmax').2.2.2]

end Scan

section Slots
variable {α : Type} {batches : List (RecordBatch α)}

def offset32 (minKey : ℤ) (key : List (Option KeyValue)) : Option ℕ :=
  (int32Layout.read key).map fun k => (k.toInt - minKey).toNat

/-- The second pass after the rows seen: each slot lists the rows of its offset, and no key was
seen twice unless the flag says so. -/
structure SlotsInv (minKey : ℤ) (width : ℕ) (seen : List (BuildRowRef × Row α))
    (state : List (Option (List BuildRowRef)) × Bool) : Prop where
  slots : ∀ i < width, state.1[i]? = some (nonEmpty (refsOf (offset32 minKey) seen i))
  filled : Filled width (keyEntries (offset32 minKey) seen)
    (state.1.map fun rowRefs => rowRefs.bind List.getLast?)
  duplicates : state.2 = false ↔ ((keyEntries (offset32 minKey) seen).map Prod.fst).Nodup

theorem slotsInv_init (minKey : ℤ) (width : ℕ) :
    SlotsInv minKey width ([] : List (BuildRowRef × Row α)) (List.replicate width none,false) where
  slots i hi := by simp [hi]
  filled := by
    rw [List.map_replicate]
    exact filled_nil width
  duplicates := by simp [keyEntries]

variable {minKey : ℤ} {width : ℕ} {state : List (Option (List BuildRowRef)) × Bool}

theorem SlotsInv.length_eq {seen : List (BuildRowRef × Row α)} (h : SlotsInv minKey width seen state) :
    state.1.length = width := by
  rw [← h.filled.length_eq,List.length_map]

/-- A key within reach of the array goes to its slot. -/
theorem SlotsInv.row {seen : List (BuildRowRef × Row α)} (h : SlotsInv minKey width seen state)
    {p : BuildRowRef × Row α} (hrow : p.1.row < 2 ^ 32)
    (hkey : ∀ k, int32Layout.read p.2.key = some k →
      minKey ≤ k.toInt ∧ (k.toInt - minKey).toNat < width) (hwidth : width ≤ 2 ^ 31) :
    ∃ state', denseI32Row minKey state p.1 p.2 = .ok state' ∧
      SlotsInv minKey width (seen ++ [p]) state' := by
  unfold denseI32Row
  cases hp : int32Layout.read p.2.key with
  | none =>
    have ho : offset32 minKey p.2.key = none := by rw [offset32,hp]; rfl
    refine ⟨state,rfl,?_,?_,?_⟩
    · intro i hi
      rw [refsOf_snoc_of_ne _ (by rw [ho]; simp)]
      exact h.slots i hi
    · rw [keyEntries_snoc_none ho]
      exact h.filled
    · rw [keyEntries_snoc_none ho]
      exact h.duplicates
  | some k =>
    obtain ⟨hle,hlt⟩ := hkey k hp
    have ho : offset32 minKey p.2.key = some (k.toInt - minKey).toNat := by rw [offset32,hp]; rfl
    have hidx := denseI32Index_near hle (show k.toInt - minKey < 2 ^ 31 by omega)
    have hslot := h.slots _ hlt
    have hlen := h.length_eq
    unfold u32TryFrom
    simp only [if_pos hrow,except_bind_ok,hidx,hslot,getD_nonEmpty]
    refine ⟨_,rfl,?_,?_,?_⟩
    · intro i hi
      rw [List.getElem?_set]
      by_cases he : (k.toInt - minKey).toNat = i
      · rw [if_pos he,if_pos (by omega),refsOf_snoc_of_eq _ (by rw [ho,he]),
          nonEmpty_append_singleton,he]
      · rw [if_neg he,refsOf_snoc_of_ne _ (by rw [ho]; simpa using he)]
        exact h.slots i hi
    · rw [keyEntries_snoc_some ho,List.map_set]
      simpa using h.filled.step (e := ((k.toInt - minKey).toNat,p.1)) hlt
    · rw [keyEntries_snoc_some ho,List.map_append,List.nodup_append,← h.duplicates]
      rw [Bool.or_eq_false_iff]
      refine and_congr_right fun _ => ?_
      simp only [Bool.not_eq_false',List.isEmpty_iff,refsOf_eq_nil_iff_notMem,List.map_cons,
        List.map_nil,List.nodup_cons,List.not_mem_nil,not_false_eq_true,List.nodup_nil,true_and,
        List.mem_singleton,forall_eq]
      constructor
      · intro hn a ha he
        exact hn (he ▸ ha)
      · intro hn hm
        exact hn _ hm rfl

theorem slotsRun_ok (ha : Addressable batches)
    (hkeys : ∀ e ∈ keyEntries int32Layout.read (rowRefs batches),
      minKey ≤ e.1.toInt ∧ (e.1.toInt - minKey).toNat < width) (hwidth : width ≤ 2 ^ 31) :
    ∃ state, forEachRow (denseI32Row minKey) (List.replicate width none,false) batches = .ok state ∧
      SlotsInv minKey width (rowRefs batches) state := by
  rw [forEachRow_eq]
  refine foldlM_total (SlotsInv minKey width) (slotsInv_init minKey width) ?_
  intro seen p rest state hl hinv
  have hp : p ∈ rowRefs batches := by
    rw [hl]
    simp
  refine hinv.row (ha.row_lt hp) (fun k hk => ?_) hwidth
  exact hkeys (k,p.1) (mem_keyEntries.mpr ⟨p,hp,rfl,hk⟩)

theorem slotsRun_error (minKey : ℤ) (hwidth : width < 2 ^ 63)
    (hfar : ∃ e ∈ keyEntries int32Layout.read (rowRefs batches),
      2 ^ 31 ≤ e.1.toInt - minKey ∧ e.1.toInt - minKey < 2 ^ 32) :
    ∃ e, forEachRow (denseI32Row minKey) (List.replicate width none,false) batches = .error e := by
  obtain ⟨⟨k,r⟩,he,hk⟩ := hfar
  obtain ⟨p,hp,-,hread⟩ := mem_keyEntries.mp he
  have hidx := denseI32Index_far hk.1 hk.2
  rw [forEachRow_eq]
  refine foldlM_error (fun state => state.1.length = width) ?_ hp ?_ List.length_replicate
  · intro state q state' hlen h
    unfold denseI32Row at h
    split at h
    · cases h
      exact hlen
    · obtain ⟨_,-,h⟩ := except_bind_eq_ok.mp h
      split at h
      · cases h
      · cases h
        simpa using hlen
  · intro state hlen
    unfold denseI32Row
    simp only [hread]
    rcases except_cases (u32TryFrom p.1.row rowsPerBatchMessage) with ⟨a,ha⟩ | ⟨e,he⟩
    · rw [ha,except_bind_ok,List.getElem?_eq_none (by dsimp only at hidx; omega)]
      exact ⟨_,rfl⟩
    · rw [he]
      exact ⟨e,rfl⟩

theorem getSigned_slots {ρ : Type} {dense : List (Option ρ)}
    (hlen : dense.length = width) (hwidth : width ≤ 2 ^ 31) {slots : DenseSlots ρ}
    (hslots : ∀ i, slots.get i = dense[i]?.join) (k : Int32) :
    (⟨minKey,slots⟩ : DenseRows ρ).getSigned 32 k.toInt =
      if minKey ≤ k.toInt ∧ (k.toInt - minKey).toNat < width then
        dense[(k.toInt - minKey).toNat]?.join else none := by
  unfold DenseRows.getSigned
  by_cases hin : InSigned 32 (k.toInt - minKey)
  · rw [checkedSigned_of_mem hin,Option.bind_some,hslots]
    rcases asUnsigned_signed (by omega) hin with ⟨h0,he⟩ | ⟨h0,he⟩
    · rw [he]
      split
      · rfl
      · rw [List.getElem?_eq_none (by omega)]
        rfl
    · rw [if_neg (by omega),List.getElem?_eq_none (by omega)]
      rfl
  · rw [checkedSigned,if_neg hin,if_neg]
    · rfl
    · rintro ⟨h0,hlt⟩
      exact hin ⟨by omega,by omega⟩

end Slots

section Attempt
variable {α : Type} {batches : List (RecordBatch α)} {minKey : ℤ} {width : ℕ}

theorem refsOf_offset (hkeys : ∀ e ∈ keyEntries int32Layout.read (rowRefs batches),
      minKey ≤ e.1.toInt ∧ (e.1.toInt - minKey).toNat < width) (k : Int32) :
    refsOf int32Layout.read (rowRefs batches) k =
      if minKey ≤ k.toInt ∧ (k.toInt - minKey).toNat < width then
        refsOf (offset32 minKey) (rowRefs batches) (k.toInt - minKey).toNat
      else [] := by
  split
  · next h =>
    unfold refsOf
    congr 1
    apply List.filter_congr
    intro p hp
    unfold offset32
    cases hr : int32Layout.read p.2.key with
    | none => rfl
    | some k' =>
      have h' := (hkeys (k',p.1) (mem_keyEntries.mpr ⟨p,hp,rfl,hr⟩)).1
      simp only [Option.map_some,Option.some.injEq,decide_eq_decide]
      constructor
      · rintro rfl
        rfl
      · intro he
        exact int32_toInt_injective (by dsimp only at h'; omega)
  · next h =>
    by_contra hne
    obtain ⟨p,hp,hr⟩ := (refsOf_ne_nil int32Layout.read).mp hne
    exact h (hkeys (k,p.1) (mem_keyEntries.mpr ⟨p,hp,rfl,hr⟩))

theorem keyEntries_offset (minKey : ℤ) (seen : List (BuildRowRef × Row α)) :
    keyEntries (offset32 minKey) seen =
      (keyEntries int32Layout.read seen).map fun e => ((e.1.toInt - minKey).toNat,e.2) := by
  unfold keyEntries offset32
  rw [List.map_filterMap]
  congr 1
  funext p
  rw [Option.map_map,Option.map_map]
  rfl

theorem nodup_offset_iff (hkeys : ∀ e ∈ keyEntries int32Layout.read (rowRefs batches),
      minKey ≤ e.1.toInt ∧ (e.1.toInt - minKey).toNat < width) :
    ((keyEntries (offset32 minKey) (rowRefs batches)).map Prod.fst).Nodup ↔
      ((keyEntries int32Layout.read (rowRefs batches)).map Prod.fst).Nodup := by
  rw [keyEntries_offset]
  constructor
  · intro hn
    rw [List.map_map] at hn
    refine List.Nodup.of_map (fun k : Int32 => (k.toInt - minKey).toNat) ?_
    rwa [List.map_map]
  · intro hn
    refine offsets_nodup (fun k : Int32 => (k.toInt - minKey).toNat) hn ?_
    intro e he e' he' h
    have h1 := (hkeys e he).1
    have h2 := (hkeys e' he').1
    exact int32_toInt_injective (by omega)

variable {hashRowWithSalt : RowHash} {collectAllRows : Bool} {types : List DataType}

theorem valid_of_dense {allRows : List BuildRowRef} {multi : Option DenseI32MultiBuildRows}
    {unique : Option DenseI32BuildRows} {pair : Option DenseI32PairBuildRows}
    (hall : allRows = if collectAllRows then (rowRefs batches).map Prod.fst else [])
    (hread : readsTypedKey .fastSingleKey types = true)
    (hmulti : ∀ d, multi = some d →
      Serves int32Layout types (rowRefs batches) (DenseI32MultiBuildRows.get d))
    (hunique : ∀ d, unique = some d → DenseUnique types (rowRefs batches) d)
    (hpair : ∀ d, pair = some d →
      Serves int32PairLayout types (rowRefs batches) fun k => (d.get k).map fun r => [r])
    (hsome : unique.isSome ∨ multi.isSome ∨ pair.isSome) :
    HashJoinBuild.Valid hashRowWithSalt .fastSingleKey collectAllRows batches types
      { HashJoinBuild.ofBatches batches types allRows with
        i32DenseRows := multi
        i32DenseUniqueRows := unique
        i32PairDenseUniqueRows := pair } := by
  have hnone : ∀ {β : Type} {P : β → Prop}, ∀ b, none = some b → P b := by
    intro β P b h
    cases h
  refine ⟨rfl,rfl,fun _ => hall,hunique,hnone,hmulti,hnone,hnone,hnone,hnone,hpair,hnone,hnone,
    hnone,hnone,hnone,hnone,rfl,fun _ => rfl,fun h => absurd rfl h,?_,?_⟩
  · intro _
    unfold HashJoinBuild.Typed
    rcases hsome with h | h | h <;> simp [h]
  · intro _ hf
    rw [buildsTypedOnly,hread] at hf
    cases hf

variable {state : List (Option (List BuildRowRef)) × Bool}

theorem serves_multi (hkeys : ∀ e ∈ keyEntries int32Layout.read (rowRefs batches),
      minKey ≤ e.1.toInt ∧ (e.1.toInt - minKey).toNat < width) (hwidth : width ≤ 2 ^ 31)
    (h : SlotsInv minKey width (rowRefs batches) state) {slots : DenseSlots (List BuildRowRef)}
    (hslots : ∀ i, slots.get i = state.1[i]?.join) :
    Serves int32Layout [.int32] (rowRefs batches) (DenseI32MultiBuildRows.get ⟨minKey,slots⟩) := by
  refine ⟨rfl,fun k => ?_⟩
  change (⟨minKey,slots⟩ : DenseRows (List BuildRowRef)).getSigned 32 k.toInt = _
  rw [getSigned_slots h.length_eq hwidth hslots,refsOf_offset hkeys]
  split
  · next hk =>
    rw [h.slots _ hk.2]
    rfl
  · rfl

theorem denseUnique_of_slots (hkeys : ∀ e ∈ keyEntries int32Layout.read (rowRefs batches),
      minKey ≤ e.1.toInt ∧ (e.1.toInt - minKey).toNat < width) (hwidth : width ≤ 2 ^ 31)
    (h : SlotsInv minKey width (rowRefs batches) state) (hdup : state.2 = false)
    {slots : DenseSlots BuildRowRef}
    (hlen : slots.len = (state.1.map fun rowRefs => rowRefs.bind List.getLast?).length)
    (hslots : ∀ i, slots.get i = (state.1.map fun rowRefs => rowRefs.bind List.getLast?)[i]?.join) :
    DenseUnique [.int32] (rowRefs batches) ⟨minKey,slots⟩ := by
  have hn := h.duplicates.mp hdup
  have hslot : ∀ i r, slots.get i = some r ↔ (i,r) ∈ keyEntries (offset32 minKey) (rowRefs batches) := by
    intro i r
    rw [hslots,Option.join_eq_some_iff,h.filled.mem hn]
  have hoffset : ∀ k : Int32, minKey ≤ k.toInt → ∀ r,
      ((k.toInt - minKey).toNat,r) ∈ keyEntries (offset32 minKey) (rowRefs batches) ↔
        (k,r) ∈ keyEntries int32Layout.read (rowRefs batches) := by
    intro k hk r
    rw [mem_keyEntries,mem_keyEntries]
    refine exists_congr fun p => and_congr_right fun hp => and_congr_right fun _ => ?_
    unfold offset32
    rw [Option.map_eq_some_iff]
    constructor
    · rintro ⟨k',hk',he⟩
      have h' := (hkeys (k',p.1) (mem_keyEntries.mpr ⟨p,hp,rfl,hk'⟩)).1
      have : k' = k := int32_toInt_injective (by dsimp only at h'; omega)
      rw [← this]
      exact hk'
    · intro hr
      exact ⟨k,hr,rfl⟩
  refine ⟨⟨rfl,?_⟩,?_,?_,?_⟩
  · refine answers_of_entries ((nodup_offset_iff hkeys).mp hn) ?_
    intro k r
    change (⟨minKey,slots⟩ : DenseRows BuildRowRef).getSigned 32 k.toInt = some r ↔ _
    rw [getSigned_slots h.filled.length_eq hwidth hslots]
    split
    · next hk => rw [← hoffset k hk.1,← hslot,hslots]
    · next hk =>
      constructor
      · intro hf
        cases hf
      · intro hm
        exact absurd (hkeys _ hm) hk
  · intro p hp k hk
    rw [hlen,h.filled.length_eq]
    exact hkeys (k,p.1) (mem_keyEntries.mpr ⟨p,hp,rfl,hk⟩)
  · intro i r
    rw [hslot,mem_keyEntries]
    refine exists_congr fun p => and_congr_right fun hp => and_congr_right fun _ => ?_
    unfold offset32
    rw [Option.map_eq_some_iff]
    exact exists_congr fun k => and_congr_right fun _ => eq_comm
  · dsimp only
    rw [hlen,h.filled.length_eq]
    exact hwidth

theorem tryBuildDenseI32_none (ht : Typed [.int32] batches) (ha : Addressable batches)
    (h : int32Keys (inputRows batches) = [] ∨
      denseWidthLimit (totalRows batches) < keySpan (int32Keys (inputRows batches))) :
    tryBuildDenseI32HashJoinInput batches collectAllRows = .ok none := by
  obtain ⟨scan,hscan,hinv⟩ := scanBatches_ok collectAllRows ht ha
  unfold tryBuildDenseI32HashJoinInput
  rw [hscan,except_bind_ok]
  dsimp only
  split
  · rfl
  · next hne =>
    have hlim := h.resolve_left fun hnil => hne (hinv.nonNullRows_eq_zero.mpr hnil)
    rw [← hinv.span hne] at hlim
    rw [if_pos hlim]
    rfl

variable (hashRowWithSalt collectAllRows) in
/-- A single reference for each key is kept exactly when no key repeats. -/
theorem tryBuildDenseI32_some (ht : Typed [.int32] batches) (ha : Addressable batches)
    (hne : int32Keys (inputRows batches) ≠ [])
    (hle : keySpan (int32Keys (inputRows batches)) ≤ denseWidthLimit (totalRows batches))
    (hs : keySpan (int32Keys (inputRows batches)) ≤ 2 ^ 31) :
    ∃ build, tryBuildDenseI32HashJoinInput batches collectAllRows = .ok (some build) ∧
      build.Valid hashRowWithSalt .fastSingleKey collectAllRows batches [.int32] ∧
      (build.i32DenseUniqueRows.isSome ↔ (int32Keys (inputRows batches)).Nodup) := by
  obtain ⟨scan,hscan,hinv⟩ := scanBatches_ok collectAllRows ht ha
  have hne' : scan.nonNullRows ≠ 0 := fun h0 => hne (hinv.nonNullRows_eq_zero.mp h0)
  have hw := hinv.span hne'
  have hkeys : ∀ e ∈ keyEntries int32Layout.read (rowRefs batches), scan.minKey ≤ e.1.toInt ∧
      (e.1.toInt - scan.minKey).toNat < (scan.maxKey - scan.minKey + 1).toNat := by
    intro e he
    have hb := hinv.bounds e he
    exact ⟨hb.1,by omega⟩
  have hwidth : (scan.maxKey - scan.minKey + 1).toNat ≤ 2 ^ 31 := by omega
  obtain ⟨⟨dense,hasDuplicates⟩,hrun,hslots⟩ := slotsRun_ok ha hkeys hwidth
  have hnodup : hasDuplicates = false ↔ (int32Keys (inputRows batches)).Nodup := by
    have hkeyed : (keyEntries int32Layout.read (rowRefs batches)).map (fun e => e.1.toInt) =
        ((keyEntries int32Layout.read (rowRefs batches)).map Prod.fst).map Int32.toInt := by
      rw [List.map_map]
      rfl
    rw [int32Keys_eq_map_keyEntries,hkeyed,List.nodup_map_iff int32_toInt_injective,
      ← nodup_offset_iff hkeys]
    exact hslots.duplicates
  unfold tryBuildDenseI32HashJoinInput
  rw [hscan,except_bind_ok]
  dsimp only
  rw [if_neg hne',if_neg (by omega),hrun,except_bind_ok]
  cases hasDuplicates with
  | true =>
    have hcount : dense.countP Option.isSome = dense.reduceOption.length := by
      rw [List.reduceOption_length_eq,List.countP_eq_length_filter]
    obtain ⟨slots,hp,-,hget⟩ := packDense_spec hcount
    refine ⟨_,by simp only [if_true,hp,except_bind_ok]; rfl,?_,?_⟩
    · refine valid_of_dense hinv.allRows_eq rfl ?_ (fun d hd => by cases hd)
        (fun d hd => by cases hd) (Or.inr (Or.inl rfl))
      rintro d ⟨⟩
      exact serves_multi hkeys hwidth hslots hget
    · rw [← hnodup]
      simp [HashJoinBuild.ofBatches]
  | false =>
    have hcount : (dense.map fun rowRefs => rowRefs.bind List.getLast?).countP Option.isSome =
        scan.nonNullRows := by
      rw [hslots.filled.count (hslots.duplicates.mp rfl),hinv.nonNullRows_eq,keyEntries_offset,
        List.length_map]
    obtain ⟨slots,hp,hlen,hget⟩ := packDense_spec hcount
    refine ⟨_,by simp only [Bool.false_eq_true,if_false,hp,except_bind_ok]; rfl,?_,?_⟩
    · refine valid_of_dense hinv.allRows_eq rfl (fun d hd => by cases hd) ?_
        (fun d hd => by cases hd) (Or.inl rfl)
      rintro d ⟨⟩
      exact denseUnique_of_slots hkeys hwidth hslots rfl hlen hget
    · rw [← hnodup]
      simp

variable (collectAllRows) in
theorem tryBuildDenseI32_error (ht : Typed [.int32] batches)
    (h : ¬ Addressable batches ∨ DenseOverflow [.int32] batches) :
    ∃ e, tryBuildDenseI32HashJoinInput batches collectAllRows = .error e := by
  by_cases ha : Addressable batches
  · obtain ⟨-,hspan,hle⟩ := h.resolve_left (not_not.mpr ha)
    obtain ⟨scan,hscan,hinv⟩ := scanBatches_ok collectAllRows ht ha
    have hne : scan.nonNullRows ≠ 0 := by
      intro h0
      rw [hinv.nonNullRows_eq_zero.mp h0] at hspan
      simp [keySpan] at hspan
    have hw := hinv.span hne
    have hentries : keyEntries int32Layout.read (rowRefs batches) ≠ [] := by
      rw [hinv.nonNullRows_eq] at hne
      simpa using hne
    obtain ⟨⟨emin,hemin,hmin⟩,⟨emax,hemax,hmax⟩⟩ := hinv.attained hentries
    have hsub := int32_sub_lt emax.1 emin.1
    obtain ⟨e,he⟩ := slotsRun_error scan.minKey
      (show (scan.maxKey - scan.minKey + 1).toNat < 2 ^ 63 by omega)
      ⟨emax,hemax,by omega,by omega⟩
    unfold tryBuildDenseI32HashJoinInput
    rw [hscan,except_bind_ok]
    dsimp only
    rw [if_neg hne,if_neg (by omega),he]
    exact ⟨e,rfl⟩
  · obtain ⟨e,he⟩ := scanBatches_error collectAllRows ht ha
    unfold tryBuildDenseI32HashJoinInput
    rw [he]
    exact ⟨e,rfl⟩

end Attempt
end Dodam.Execution
