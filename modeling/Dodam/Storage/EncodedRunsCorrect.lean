import Dodam.Storage.NullableRuns

/-! # Encoded pages and their selected rows

A page that decodes has the maximal runs of its selected rows appended, as if it was decoded
first and filtered then.
-/
namespace Dodam.Storage
open Foundation Execution PageRun

/-- A row of the page that has a value with a selected id. -/
def SelectedRow (selected : List Bool) (defLevels : Option (List ℤ × ℤ)) (rowOffset rows : ℕ) (ids : List ℕ) (row : ℕ) :
    Prop :=
  ∃ k id, row = rowOffset + k ∧ (rowIds (presentRows defLevels rows) ids)[k]? = some (some id) ∧ selected[id]? = some true

/-- The page has a fault that the scan ends at with an error. -/
def reportsFault (data : List UInt8) (values dictionaryLen : ℕ) (defLevels : Option (List ℤ × ℤ)) (rows : ℕ) : Bool :=
  match data with
  | [] => false
  | w :: body =>
    w.toNat ≤ 32 &&
      match defLevels with
      | none => reportedRuns w.toNat dictionaryLen (pageRuns w.toNat body).2 (pageRuns w.toNat body).1 (min values rows)
      | some (levels,_) =>
        reportedBlocks dictionaryLen (pageRuns w.toNat body).2
          (availableIds (pageRuns w.toNat body).2 ((pageRuns w.toNat body).1.flatMap ids))
          ((presentRows defLevels rows).count true) (levels.length < rows)

section Rows
variable {selected : List Bool} {defLevels : Option (List ℤ × ℤ)} {rowOffset rows : ℕ} {ids : List ℕ}

theorem mem_selectedFlags {row : ℕ} :
    row ∈ markedFrom rowOffset (selectedFlags selected (presentRows defLevels rows) ids) ↔
      SelectedRow selected defLevels rowOffset rows ids row := by
  rw [mem_markedFrom,selectedFlags,List.getElem?_map]
  constructor
  · rintro ⟨hle,hflag⟩
    obtain ⟨found,hfound,hselected⟩ := Option.map_eq_some_iff.mp hflag
    cases found with
    | none => cases hselected
    | some id =>
      refine ⟨row - rowOffset,id,by omega,hfound,?_⟩
      simp only [Option.elim_some,flagAt] at hselected
      cases hid : selected[id]? with
      | none =>
        rw [hid] at hselected
        cases hselected
      | some flag =>
        rw [hid] at hselected
        exact congrArg some hselected
  · rintro ⟨k,id,rfl,hid,hselected⟩
    refine ⟨Nat.le_add_right ..,?_⟩
    rw [Nat.add_sub_cancel_left,hid,Option.map_some,Option.elim_some,flagAt,hselected,Option.getD_some]

theorem exists_selectedRuns (selected : List Bool) (defLevels : Option (List ℤ × ℤ)) (rowOffset rows : ℕ) (ids : List ℕ) :
    ∃ runs, MaximalRuns (SelectedRow selected defLevels rowOffset rows ids) runs ∧ ∀ out : SelectedRuns,
      out.pushRows (markedFrom rowOffset (selectedFlags selected (presentRows defLevels rows) ids)) = out.pushRuns runs := by
  obtain ⟨runs,⟨hnonempty,hapart,hcovers⟩,hpush⟩ := SelectedRuns.exists_maximalRuns
    (markedFrom_sorted rowOffset (selectedFlags selected (presentRows defLevels rows) ids))
  exact ⟨runs,⟨hnonempty,hapart,fun row => mem_selectedFlags.symm.trans (hcovers row)⟩,hpush⟩

end Rows

section Cases
variable {data : List UInt8} {values dictionaryLen rowOffset rows : ℕ} {defLevels : Option (List ℤ × ℤ)} {selected : List Bool}

theorem presentRows_none_count : (presentRows none rows).count true = rows := List.count_replicate_self ..

theorem length_presentRows_some {levels : List ℤ} {maxLevel : ℤ} :
    (presentRows (some (levels,maxLevel)) rows).length = min rows levels.length := by
  rw [presentRows,List.length_map,List.length_take]

theorem selectedFlags_of_count_zero {present : List Bool} (h : present.count true = 0) (ids : List ℕ) :
    ∀ flag ∈ selectedFlags selected present ids, flag = false := by
  induction present with
  | nil => nofun
  | cons flag present ih =>
    cases flag with
    | true =>
      rw [List.count_cons_self] at h
      omega
    | false =>
      rw [List.count_cons_of_ne Bool.false_ne_true] at h
      exact List.forall_mem_cons.mpr ⟨rfl,ih h⟩

theorem available_of_firstIds {runs : List PageRun} {e : RunsEnd} {ids : List ℕ} {n : ℕ} {short : Bool}
    (hids : firstIds dictionaryLen runs n = some ids)
    (hreport : reportedBlocks dictionaryLen e (availableIds e (runs.flatMap PageRun.ids)) n short = false) :
    n ≤ (availableIds e (runs.flatMap PageRun.ids)).length ∧
      (availableIds e (runs.flatMap PageRun.ids)).take n = ids := by
  have hlen := length_firstIds hids
  have hprefix := firstIds_initial hids
  have havailable := availableIds_prefix e (runs.flatMap PageRun.ids)
  have hle : n ≤ (availableIds e (runs.flatMap PageRun.ids)).length := by
    by_contra hshort
    have he : e ≠ .finished := fun he => by
      rw [availableIds,if_pos he] at hshort
      exact hshort (hlen ▸ hprefix.length_le)
    -- the available ids are among those of the page
    have hsub := List.prefix_of_prefix_length_le havailable hprefix (by omega)
    have hknown : ((availableIds e (runs.flatMap PageRun.ids)).take n).all (· < dictionaryLen) = true :=
      List.all_eq_true.mpr fun id hid => decide_eq_true
        (lt_of_firstIds hids (hsub.subset (List.mem_of_mem_take hid)))
    rw [reportedBlocks,hknown,if_neg hshort,Bool.true_and] at hreport
    exact he (by simpa using hreport)
  refine ⟨hle,?_⟩
  have hfirst := List.prefix_of_prefix_length_le hprefix havailable (by omega)
  rw [← hlen]
  exact (List.prefix_iff_eq_take.mp hfirst).symm

theorem PageDecodes.firstIds_eq {w : UInt8} {body : List UInt8} {ids : List ℕ}
    (h : PageDecodes (w :: body) values dictionaryLen defLevels rows ids) :
    firstIds dictionaryLen (pageRuns w.toNat body).1 values = some ids ∧ (32 < w.toNat → values = 0) := by
  obtain ⟨hlen,hbody⟩ := h.body
  rcases hbody with hzero | ⟨w',body',heq,hw,hids⟩
  · rw [hzero] at hlen ⊢
    rw [firstIds_zero,List.eq_nil_of_length_eq_zero hlen]
    exact ⟨rfl,fun _ => rfl⟩
  · cases heq
    exact ⟨hids,fun h => absurd hw (Nat.not_le.mpr h)⟩

theorem map_contains_eq (hselected : selected.length < 2 ^ 32) (ids : List ℕ) :
    ids.map (DictionaryIdMatcher.fromSelected selected).contains = ids.map (flagAt selected) :=
  List.map_congr_left fun id _ => DictionaryIdMatcher.contains_fromSelected hselected id

theorem nonNull_scanEnds (selected : List Bool) (values dictionaryLen rows w rowOffset : ℕ) (body : List UInt8)
    (out : SelectedRuns) :
    ScanEnds out [] (DictionaryIdMatcher.fromSelected selected).contains rowOffset (min values rows) (values = rows)
      (reportedRuns w dictionaryLen (pageRuns w body).2 (pageRuns w body).1 (min values rows))
      (appendDictionaryIdSelectedRunsNonNullFromEncodedFast dictionaryLen rowOffset body w values rows selected out)
      (firstIds dictionaryLen (pageRuns w body).1 (min values rows)) :=
  nonNullRuns_scan (runsAt_pageRuns w body) (Nat.lt_succ_of_le (Nat.sub_le ..))
    (PendingRuns.after_start out rowOffset) (Nat.zero_add _)

theorem nullable_rowsEnd (selected : List Bool) {w : ℕ} (hw : w ≤ 32) (values dictionaryLen rowOffset rows : ℕ)
    (levels : List ℤ) (maxLevel : ℤ) (body : List UInt8) (out : SelectedRuns) :
    RowsEnd out [] rowOffset
      (selectedFlags selected (presentRows (some (levels,maxLevel)) rows)
        (availableIds (pageRuns w body).2 ((pageRuns w body).1.flatMap ids)))
      ((presentRows (some (levels,maxLevel)) rows).count true ≤
          (availableIds (pageRuns w body).2 ((pageRuns w body).1.flatMap ids)).length ∧
        ∀ id ∈ (availableIds (pageRuns w body).2 ((pageRuns w body).1.flatMap ids)).take
          ((presentRows (some (levels,maxLevel)) rows).count true), id < dictionaryLen)
      (0 + (presentRows (some (levels,maxLevel)) rows).count true = values)
      (reportedBlocks dictionaryLen (pageRuns w body).2
        (availableIds (pageRuns w body).2 ((pageRuns w body).1.flatMap ids))
        ((presentRows (some (levels,maxLevel)) rows).count true) (levels.length < 0 + rows) = true)
      (nullableRows dictionaryLen rowOffset values levels maxLevel selected rows 0 (.new body w) [] 0 { out := out }) :=
  nullableRows_scan 0 (SimpleRleBitpackedDecoder.streams_new hw) rfl rfl (PendingRuns.after_start out rowOffset)
    (Nat.zero_le _)

theorem append_cons (w : UInt8) (body : List UInt8) (values dictionaryLen : ℕ) (defLevels : Option (List ℤ × ℤ))
    (selected : List Bool) (rowOffset rows : ℕ) (out : SelectedRuns) :
    appendDictionaryIdSelectedRunsFromEncoded (w :: body) values dictionaryLen defLevels selected rowOffset rows out =
      if 32 < w.toNat then .ok out
      else
        match defLevels with
        | none => appendDictionaryIdSelectedRunsNonNullFromEncodedFast dictionaryLen rowOffset body w.toNat values rows
            selected out
        | some (levels,maxLevel) => nullableRows dictionaryLen rowOffset values levels maxLevel selected rows 0
            (.new body w.toNat) [] 0 { out := out } :=
  rfl

theorem reportsFault_cons {w : UInt8} (hw : w.toNat ≤ 32) (body : List UInt8) (values dictionaryLen : ℕ)
    (defLevels : Option (List ℤ × ℤ)) (rows : ℕ) :
    reportsFault (w :: body) values dictionaryLen defLevels rows =
      match defLevels with
      | none => reportedRuns w.toNat dictionaryLen (pageRuns w.toNat body).2 (pageRuns w.toNat body).1 (min values rows)
      | some (levels,_) =>
        reportedBlocks dictionaryLen (pageRuns w.toNat body).2
          (availableIds (pageRuns w.toNat body).2 ((pageRuns w.toNat body).1.flatMap ids))
          ((presentRows defLevels rows).count true) (levels.length < rows) := by
  exact (congrArg (· && _) (decide_eq_true hw)).trans (Bool.true_and _)

theorem reportedRuns_of_firstIds {w n : ℕ} {e : RunsEnd} {runs : List PageRun} {ids : List ℕ}
    (h : firstIds dictionaryLen runs n = some ids) : reportedRuns w dictionaryLen e runs n = false := by
  induction runs generalizing n ids with
  | nil =>
    cases n with
    | zero => rfl
    | succ n => cases h
  | cons run runs ih =>
    cases n with
    | zero => rfl
    | succ n =>
      rw [firstIds] at h
      split_ifs at h with hknown
      obtain ⟨rest,hrest,-⟩ := Option.map_eq_some_iff.mp h
      rw [reportedRuns_known hknown]
      exact ih hrest

/-- A page that decodes, unless a block behind its ids fails. -/
theorem append_of_decodes {ids : List ℕ} (hdecodes : PageDecodes data values dictionaryLen defLevels rows ids)
    (hselected : selected.length < 2 ^ 32) (hreport : reportsFault data values dictionaryLen defLevels rows = false)
    (out : SelectedRuns) :
    appendDictionaryIdSelectedRunsFromEncoded data values dictionaryLen defLevels selected rowOffset rows out =
      .ok (out.pushRows (markedFrom rowOffset (selectedFlags selected (presentRows defLevels rows) ids))) := by
  -- without values there is nothing to select
  have hempty (hzero : values = 0) :
      out.pushRows (markedFrom rowOffset (selectedFlags selected (presentRows defLevels rows) ids)) = out := by
    rw [markedFrom_none (selectedFlags_of_count_zero (hdecodes.count.trans hzero) ids)]
    rfl
  cases data with
  | nil =>
    rcases hdecodes.body.2 with hzero | ⟨w,body,hdata,-⟩
    · rw [hempty hzero]
      rfl
    · cases hdata
  | cons w body =>
    obtain ⟨hids,hwide⟩ := hdecodes.firstIds_eq
    rw [append_cons]
    by_cases hw : 32 < w.toNat
    · rw [if_pos hw,hempty (hwide hw)]
    rw [if_neg hw]
    rw [reportsFault_cons (Nat.not_lt.mp hw)] at hreport
    cases defLevels with
    | none =>
      have hrows : rows = values := presentRows_none_count.symm.trans hdecodes.count
      subst hrows
      have hscan := nonNull_scanEnds selected rows dictionaryLen rows w.toNat rowOffset body out
      rw [Nat.min_self,hids] at hscan
      obtain ⟨p,hafter,hout⟩ := hscan
      have hlen : ids.length = rows := hdecodes.body.1
      have hflags : ids.map (DictionaryIdMatcher.fromSelected selected).contains =
          selectedFlags selected (presentRows none rows) ids := by
        rw [map_contains_eq hselected,presentRows,← hlen,selectedFlags_replicate]
      rw [hflags,List.nil_append] at hafter
      exact hout.trans ((if_pos rfl).trans (congrArg Except.ok hafter.closed))
    | some levelled =>
      obtain ⟨levels,maxLevel⟩ := levelled
      dsimp only at hreport ⊢
      have hcount := hdecodes.count
      rw [hcount] at hreport
      obtain ⟨hle,htake⟩ := available_of_firstIds hids hreport
      have hends := nullable_rowsEnd selected (Nat.not_lt.mp hw) values dictionaryLen rowOffset rows levels maxLevel body out
      rw [hcount,Nat.zero_add,Nat.zero_add,hreport,htake] at hends
      obtain ⟨p,hafter,hout⟩ := hends.2.2 Bool.false_ne_true ⟨hle,fun id hid => lt_of_firstIds hids hid⟩
      rw [hout rfl,hafter.closed,List.nil_append,selectedFlags,← rowIds_take_count,hcount,htake]
      rfl

theorem append_of_reported (hreport : reportsFault data values dictionaryLen defLevels rows = true) (out : SelectedRuns) :
    ∃ f, appendDictionaryIdSelectedRunsFromEncoded data values dictionaryLen defLevels selected rowOffset rows out = .error f := by
  cases data with
  | nil => cases hreport
  | cons w body =>
    have hw : w.toNat ≤ 32 := of_decide_eq_true (Bool.and_eq_true_iff.mp hreport).1
    rw [reportsFault_cons hw] at hreport
    rw [append_cons,if_neg (Nat.not_lt.mpr hw)]
    cases defLevels with
    | none =>
      have hscan := nonNull_scanEnds selected values dictionaryLen rows w.toNat rowOffset body out
      dsimp only at hreport
      rw [hreport] at hscan
      cases hids : firstIds dictionaryLen (pageRuns w.toNat body).1 (min values rows) with
      | none =>
        rw [hids] at hscan
        exact hscan
      | some ids =>
        rw [reportedRuns_of_firstIds hids] at hreport
        cases hreport
    | some levelled =>
      exact (nullable_rowsEnd selected hw values dictionaryLen rowOffset rows levelled.1 levelled.2 body out).1
        (by simpa using hreport)

theorem append_of_not_reported (selected : List Bool) (rowOffset : ℕ)
    (hreport : reportsFault data values dictionaryLen defLevels rows = false) (out : SelectedRuns) :
    ∃ s, appendDictionaryIdSelectedRunsFromEncoded data values dictionaryLen defLevels selected rowOffset rows out = .ok s := by
  cases data with
  | nil => exact ⟨out,rfl⟩
  | cons w body =>
    rw [append_cons]
    by_cases hw : 32 < w.toNat
    · exact ⟨out,if_pos hw⟩
    rw [if_neg hw]
    rw [reportsFault_cons (Nat.not_lt.mp hw)] at hreport
    cases defLevels with
    | none =>
      have hscan := nonNull_scanEnds selected values dictionaryLen rows w.toNat rowOffset body out
      dsimp only at hreport
      rw [hreport] at hscan
      cases hids : firstIds dictionaryLen (pageRuns w.toNat body).1 (min values rows) with
      | none =>
        rw [hids] at hscan
        exact hscan
      | some ids =>
        rw [hids] at hscan
        obtain ⟨p,-,hout⟩ := hscan
        rw [hout]
        split_ifs
        · exact ⟨_,rfl⟩
        · exact ⟨_,rfl⟩
    | some levelled =>
      refine (nullable_rowsEnd selected (Nat.not_lt.mp hw) values dictionaryLen rowOffset rows levelled.1 levelled.2 body out).2.1 ?_
      rw [Nat.zero_add]
      exact Bool.eq_false_iff.mp hreport

theorem firstIds_of_encodes {w : ℕ} {body : List UInt8} {ids : List ℕ} (hbody : HybridEncodes w body ids)
    (hids : ∀ id ∈ ids, id < dictionaryLen) :
    firstIds dictionaryLen (pageRuns w body).1 ids.length = some ids ∧ (pageRuns w body).2 = .finished := by
  obtain ⟨padding,hruns⟩ := hbody
  obtain ⟨runs,hat,hflat,hpos⟩ := runsAt_of_hybridRuns hruns (List.drop_zero (l := body))
  obtain ⟨hruns',hend⟩ := (runsAt_pageRuns w body).unique hat
  have htake : (runs.flatMap PageRun.ids).take ids.length = ids := by rw [hflat,List.take_left]
  refine ⟨?_,hend⟩
  rw [hruns',firstIds_eq hpos (by rw [hflat,List.length_append]; omega) (by rwa [htake]),htake]

/-- A well-formed body has its selected rows appended as their maximal runs. -/
theorem append_wellFormed {w : UInt8} {body : List UInt8} {ids : List ℕ} (hw : w.toNat ≤ 32)
    (hbody : HybridEncodes w.toNat body ids) (hids : ∀ id ∈ ids, id < dictionaryLen) (hselected : selected.length < 2 ^ 32)
    (hlevels : (presentRows defLevels rows).length = rows) (hcount : (presentRows defLevels rows).count true = ids.length)
    (out : SelectedRuns) :
    ∃ runs, MaximalRuns (SelectedRow selected defLevels rowOffset rows ids) runs ∧
      appendDictionaryIdSelectedRunsFromEncoded (w :: body) ids.length dictionaryLen defLevels selected rowOffset rows out =
        .ok (out.pushRuns runs) ∧
      (out.pushRuns runs).builder.selectedRows =
        out.builder.selectedRows + (selectedFlags selected (presentRows defLevels rows) ids).count true := by
  have hfirst := firstIds_of_encodes hbody hids
  have hdecodes : PageDecodes (w :: body) ids.length dictionaryLen defLevels rows ids :=
    ⟨hlevels,hcount,rfl,.inr ⟨w,body,rfl,hw,hfirst.1⟩⟩
  have hreport : reportsFault (w :: body) ids.length dictionaryLen defLevels rows = false := by
    rw [reportsFault_cons hw]
    cases defLevels with
    | none =>
      have hrows : rows = ids.length := presentRows_none_count.symm.trans hcount
      rw [hrows,Nat.min_self]
      exact reportedRuns_of_firstIds hfirst.1
    | some levelled =>
      have hlong := length_presentRows_some.symm.trans hlevels
      have hall := (firstIds_initial hfirst.1).length_le
      dsimp only
      rw [hcount,reportedBlocks,availableIds,if_pos hfirst.2,if_pos hall,decide_eq_false (by omega),Bool.and_false]
  obtain ⟨runs,hmaximal,hpush⟩ := exists_selectedRuns selected defLevels rowOffset rows ids
  refine ⟨runs,hmaximal,?_,?_⟩
  · rw [append_of_decodes hdecodes hselected hreport,hpush]
  · rw [← hpush,SelectedRuns.selectedRows_pushRows,length_markedFrom]

/-- Two rows with the selected id behind an earlier run that they touch, and one with another id. -/
theorem append_wellFormed_sample :
    ∃ runs, MaximalRuns (SelectedRow [false,true] none 10 3 [1,1,0]) runs ∧
      appendDictionaryIdSelectedRunsFromEncoded [8,4,1,2,0] 3 2 none [false,true] 10 3 ({ runs := [(7,3)] } : SelectedRuns) =
        .ok (SelectedRuns.pushRuns { runs := [(7,3)] } runs) ∧
      (SelectedRuns.pushRuns { runs := [(7,3)] } runs).builder.selectedRows =
        0 + (selectedFlags [false,true] (presentRows none 3) [1,1,0]).count true := by
  have hone : HybridRun 8 ([4] ++ [1]) (List.replicate 2 1) :=
    .repeated (n := 2) (headerBytes_singleton rfl (by decide)) (by decide) rfl (by decide)
  have htwo : HybridRun 8 ([2] ++ [0]) (List.replicate 1 0) :=
    .repeated (n := 1) (headerBytes_singleton rfl (by decide)) (by decide) rfl (by decide)
  have hbody : HybridEncodes 8 [4,1,2,0] [1,1,0] := ⟨[],.cons hone (.cons htwo .nil)⟩
  exact append_wellFormed (w := 8) (by decide) hbody (by decide) (by decide) rfl rfl _

/-- An `Ok` stands for a page that decodes with its selected rows appended, just when the page does
decode or has a fault that the scan reports. -/
theorem append_ok_iff (hselected : selected.length < 2 ^ 32) (out : SelectedRuns) :
    (∀ out', appendDictionaryIdSelectedRunsFromEncoded data values dictionaryLen defLevels selected rowOffset rows out =
        .ok out' →
      ∃ ids, PageDecodes data values dictionaryLen defLevels rows ids ∧
        ∃ runs, MaximalRuns (SelectedRow selected defLevels rowOffset rows ids) runs ∧ out' = out.pushRuns runs) ↔
    (∃ ids, PageDecodes data values dictionaryLen defLevels rows ids) ∨
      reportsFault data values dictionaryLen defLevels rows = true := by
  constructor
  · intro h
    cases hreport : reportsFault data values dictionaryLen defLevels rows with
    | true => exact .inr rfl
    | false =>
      obtain ⟨out',hout⟩ := append_of_not_reported selected rowOffset hreport out
      obtain ⟨ids,hdecodes,-⟩ := h out' hout
      exact .inl ⟨ids,hdecodes⟩
  · intro h out' hout
    cases hreport : reportsFault data values dictionaryLen defLevels rows with
    | true =>
      obtain ⟨f,hf⟩ := append_of_reported hreport out
      cases hf.symm.trans hout
    | false =>
      obtain ⟨ids,hdecodes⟩ := h.resolve_right (Bool.eq_false_iff.mp hreport)
      obtain ⟨runs,hmaximal,hpush⟩ := exists_selectedRuns selected defLevels rowOffset rows ids
      refine ⟨ids,hdecodes,runs,hmaximal,?_⟩
      rw [append_of_decodes hdecodes hselected hreport,hpush] at hout
      exact (Except.ok.inj hout).symm

/-- The first row is selected, but the id of the second one is not in the dictionary. -/
theorem append_unknown_id :
    ¬∀ out', appendDictionaryIdSelectedRunsFromEncoded [8,2,0,2,5] 2 1 none [true] 0 2 {} = .ok out' →
      ∃ ids, PageDecodes [8,2,0,2,5] 2 1 none 2 ids ∧
        ∃ runs, MaximalRuns (SelectedRow [true] none 0 2 ids) runs ∧ out' = SelectedRuns.pushRuns {} runs := by
  intro h
  have hrun : appendDictionaryIdSelectedRunsFromEncoded [8,2,0,2,5] 2 1 none [true] 0 2 {} = .ok {} := by rfl
  obtain ⟨ids,hdecodes,-⟩ := h _ hrun
  have hnone : firstIds 1 (pageRuns 8 [2,0,2,5]).1 2 = none := by decide
  exact absurd (hnone.symm.trans hdecodes.firstIds_eq.1) nofun

theorem append_ok_iff_sample :
    (∀ out', appendDictionaryIdSelectedRunsFromEncoded [8,2,0,2,5] 2 1 none [true] 0 2 {} = .ok out' →
      ∃ ids, PageDecodes [8,2,0,2,5] 2 1 none 2 ids ∧
        ∃ runs, MaximalRuns (SelectedRow [true] none 0 2 ids) runs ∧ out' = SelectedRuns.pushRuns {} runs) ↔
    (∃ ids, PageDecodes [8,2,0,2,5] 2 1 none 2 ids) ∨ reportsFault [8,2,0,2,5] 2 1 none 2 = true :=
  append_ok_iff (by decide) {}

end Cases
end Dodam.Storage
