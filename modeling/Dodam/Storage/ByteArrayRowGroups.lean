import Dodam.Storage.ByteArrayWindows

/-! # The ids of a row group

The row-group reader turns the numbers that pass the filter into runs of rows, and reads the
dictionary ids of these rows from the pages that the runs reach into.
-/
namespace Dodam.Storage
open Foundation Execution Encoded

section Runs
variable (predicate : ℤ → Bool)

theorem selectNumbers_after {numbers : List ℤ} {initial : SelectedRuns} {seen : List ℕ} {row : ℕ} {p : PendingRuns}
    (h : p.After initial seen row) :
    (selectNumbers predicate row numbers p).After initial (seen ++ markedFrom row (numbers.map predicate))
      (row + numbers.length) := by
  induction numbers generalizing seen row p with
  | nil => simpa [selectNumbers,markedFrom] using h
  | cons number numbers ih =>
    rw [selectNumbers,List.map_cons,markedFrom,List.length_cons,Nat.add_comm numbers.length,← Nat.add_assoc]
    split_ifs with hnumber
    · have hrest := ih (h.select 1)
      rwa [List.append_assoc] at hrest
    · exact ih (h.close (row + 1))

theorem runs_pushRuns {runs : List (ℕ × ℕ)} (hpos : ∀ r ∈ runs, 0 < r.2) (hapart : runs.Pairwise fun r s => r.1 + r.2 < s.1) :
    (SelectedRuns.pushRuns {} runs).runs = runs := by
  induction runs using List.reverseRecOn with
  | nil => rfl
  | append_singleton runs r ih =>
    obtain ⟨hruns,-,hlast⟩ := List.pairwise_append.mp hapart
    have hbefore := ih (fun r hr => hpos r (List.mem_append_left _ hr)) hruns
    have hr := hpos r (List.mem_append_right _ (List.mem_singleton_self r))
    rw [SelectedRuns.pushRuns_concat,SelectedRuns.pushRun,if_neg hr.ne']
    rw [hbefore]
    cases hlast' : runs.getLast? with
    | none => rfl
    | some last =>
      have hlt := hlast last (List.mem_of_getLast? hlast') r (List.mem_singleton_self r)
      dsimp only
      rw [if_neg (by omega)]

/-- The rows whose number passes the filter. -/
def Passes (numbers : List ℤ) (i : ℕ) : Prop := (numbers.map predicate)[i]? = some true

instance (numbers : List ℤ) : DecidablePred (Passes predicate numbers) :=
  fun i => inferInstanceAs (Decidable ((numbers.map predicate)[i]? = some true))

theorem selectNumbers_marks (numbers : List ℤ) :
    Marks (Passes predicate numbers) (selectNumbers predicate 0 numbers { out := {} }).close.out.runs ∧
      (selectNumbers predicate 0 numbers { out := {} }).close.out.builder.selectedRows = (numbers.filter predicate).length := by
  have hafter := @selectNumbers_after predicate numbers _ _ _ _ (PendingRuns.after_start {} 0)
  rw [List.nil_append] at hafter
  obtain ⟨runs,hmaximal,hpush⟩ := SelectedRuns.exists_maximalRuns (markedFrom_sorted 0 (numbers.map predicate))
  rw [hafter.closed]
  constructor
  · rw [hpush,runs_pushRuns hmaximal.nonempty hmaximal.apart]
    refine ⟨hmaximal.nonempty,hmaximal.apart.imp Nat.le_of_lt,fun i => ?_⟩
    rw [← hmaximal.covers,mem_markedFrom]
    exact ⟨fun h => ⟨Nat.zero_le i,h⟩,fun h => h.2⟩
  · rw [SelectedRuns.selectedRows_pushRows,length_markedFrom,Nat.zero_add,List.count_eq_countP,List.countP_map,
      List.countP_eq_length_filter]
    exact congrArg (fun q => (numbers.filter q).length) (funext fun number => by simp)

theorem selectAt_passes (rows : List (ℤ × Option Bytes)) :
    selectAt (Passes predicate (rows.map Prod.fst)) 0 (rows.map Prod.snd) = (rows.filter fun row => predicate row.1).map Prod.snd := by
  induction rows with
  | nil => rfl
  | cons row rows ih =>
    have hrest : selectAt (Passes predicate ((row :: rows).map Prod.fst)) 1 (rows.map Prod.snd) =
        selectAt (Passes predicate (rows.map Prod.fst)) 0 (rows.map Prod.snd) := by
      rw [← selectAt_add 1 0]
      refine selectAt_congr fun j _ _ => ?_
      rw [Passes,Passes,List.map_cons,List.map_cons,Nat.add_comm,List.getElem?_cons_succ]
    change selectAt _ 0 (row.2 :: rows.map Prod.snd) = _
    rw [selectAt,hrest,ih,List.filter_cons]
    have hfirst : Passes predicate ((row :: rows).map Prod.fst) 0 ↔ predicate row.1 := by
      simp [Passes]
    by_cases hrow : predicate row.1
    · rw [if_pos (hfirst.mpr hrow),if_pos hrow,List.map_cons]
    · rw [if_neg (hfirst.not.mpr hrow),if_neg hrow]

end Runs
section Ids
variable {direct : Prop} {p : ℕ → Prop} [DecidablePred p] {runs : List (ℕ × ℕ)} {maxDefLevel : ℕ} {seen : List (Option Bytes)}
  {s : SelectedIdLoop}

/-- The loop after some rows: the ids read stand for the selected strings. -/
structure SelectedIdLoop.Inv (p : ℕ → Prop) [DecidablePred p] (runs : List (ℕ × ℕ)) (seen : List (Option Bytes))
    (s : SelectedIdLoop) : Prop where
  pageRowStart : s.pageRowStart = seen.length
  cursor : CursorPassed runs s.cursor s.pageRowStart
  ids : ∃ ids : List (Option ℕ), s.selectedIds = ids.map deliveredId ∧ ids.map (stringOf s.dictionary) = selectAt p 0 seen ∧
    ∀ id, some id ∈ ids → id < (s.dictionary.getD []).length
  small : (s.dictionary.getD []).length < 2 ^ 31
  dictionary : s.dictionary = none → seen = []

variable {rows : List (Option Bytes)} {page : ColumnPage}

theorem SelectedIdLoop.Inv.pass {pageRows : ℕ} (hruns : Marks p runs) (h : s.Inv p runs seen)
    (hlength : rows.length = pageRows) (hdictionary : s.dictionary ≠ none)
    (hoverlap : ¬runsOverlapFrom (advanceRunCursor s.cursor s.pageRowStart) s.pageRowStart (s.pageRowStart + pageRows) = true) :
    SelectedIdLoop.Inv p runs (seen ++ rows)
      { s with pageRowStart := s.pageRowStart + pageRows, cursor := advanceRunCursor s.cursor s.pageRowStart } := by
  obtain ⟨ids,hids,hstrings,hknown⟩ := h.ids
  have hnone : selectAt p s.pageRowStart rows = [] := by
    refine selectAt_none fun i hle hlt => ?_
    rw [hlength] at hlt
    exact not_selected_of_not_overlaps hruns ((h.cursor.overlap_iff hruns.sorted).not.mp hoverlap) hle hlt
  refine ⟨?_,h.cursor.advance (Nat.le_add_right ..),⟨ids,hids,?_,hknown⟩,h.small,fun hno => (hdictionary hno).elim⟩
  · rw [List.length_append,← h.pageRowStart,hlength]
  · rw [selectAt_append,Nat.zero_add,← h.pageRowStart,hnone,List.append_nil]
    exact hstrings

theorem SelectedIdLoop.Inv.append {ids : List (Option ℕ)} {pageRows : ℕ} {cursor : List (ℕ × ℕ)} (h : s.Inv p runs seen)
    (hlength : ids.length = pageRows) (hknown : ∀ id, some id ∈ ids → id < (s.dictionary.getD []).length)
    (hdictionary : s.dictionary ≠ none) (hcursor : CursorPassed runs cursor (s.pageRowStart + pageRows)) :
    SelectedIdLoop.Inv p runs (seen ++ ids.map (stringOf s.dictionary))
      { s with
        pageRowStart := s.pageRowStart + pageRows
        cursor := cursor
        selectedIds := s.selectedIds ++ (selectAt p s.pageRowStart ids).map deliveredId } := by
  obtain ⟨before,hids,hstrings,hbefore⟩ := h.ids
  refine ⟨?_,hcursor,⟨before ++ selectAt p s.pageRowStart ids,?_,?_,fun id hid => ?_⟩,h.small,fun hno => (hdictionary hno).elim⟩
  · rw [List.length_append,← h.pageRowStart,List.length_map,hlength]
  · rw [List.map_append,hids]
  · rw [List.map_append,selectAt_append,Nat.zero_add,← h.pageRowStart,selectAt_map]
    exact congrArg (· ++ _) hstrings
  · rcases List.mem_append.mp hid with hid | hid
    · exact hbefore id hid
    · exact hknown id ((selectAt_sublist ..).subset hid)

theorem SelectedIdLoop.Inv.readIds {entries : List Bytes} {start : ℕ} {levels : List ℤ} {w : UInt8}
    {body : List UInt8} {ids : List ℕ} (hruns : Marks p runs) (h : s.Inv p runs seen)
    (hencoding : page.isDictionaryEncoded) (hdictionary : s.dictionary = some entries)
    (hlevels : cursorLevels maxDefLevel page = .ok (some (start,levels,ids.length)))
    (hdata : page.buf.drop start = w :: body) (hw : w.toNat ≤ 32) (hbody : HybridEncodes w.toNat body ids)
    (hids : ∀ id ∈ ids, id < entries.length) :
    Reads direct (fun s' => s'.dictionary = s.dictionary ∧ s'.Inv p runs
        (seen ++ (rowIds (pageFlags maxDefLevel page levels) ids).map (stringOf (some entries))))
      (readIdDataPage maxDefLevel s page) := by
  obtain ⟨-,-,hzero,hnonzero⟩ := cursorLevels_spec hlevels
  obtain ⟨hlength,-⟩ := pageFlags_of_levels hlevels
  have hrows : (rowIds (pageFlags maxDefLevel page levels) ids).length = page.rows := by rw [length_rowIds,hlength]
  have hsome : s.dictionary ≠ none := by
    rw [hdictionary]
    exact Option.some_ne_none entries
  unfold readIdDataPage
  rw [if_neg (by rw [hencoding]; decide),hdictionary]
  dsimp only
  split_ifs with hoverlap
  · have hcursor := h.cursor.advance (Nat.le_add_right s.pageRowStart page.rows)
    obtain ⟨hmarks,-⟩ := (h.cursor.advance le_rfl).marks hruns
    -- both decoders give the ids of the selected rows
    have hread : (if levels = [] then
        Encoded.decodeDictionaryIndicesSelectedRanges ids.length entries.length s.pageRowStart page.rows (w :: body)
          (advanceRunCursor s.cursor s.pageRowStart) s.selectedIds
      else Encoded.decodeDictionaryIndicesSelectedNullableRanges maxDefLevel ids.length entries.length s.pageRowStart page.rows
          (w :: body) (advanceRunCursor s.cursor s.pageRowStart) levels s.selectedIds) =
        .ok (s.selectedIds ++ (selectAt p s.pageRowStart (rowIds (pageFlags maxDefLevel page levels) ids)).map
          Encoded.deliveredId) := by
      rw [(h.cursor.advance le_rfl).selectAt_eq hruns]
      split_ifs with hnil
      · have hall : ids.length = page.rows ∧ pageFlags maxDefLevel page levels = List.replicate page.rows true := by
          by_cases hmax : maxDefLevel = 0
          · exact ⟨(hzero hmax).2,if_pos hmax⟩
          · obtain ⟨hrows,hcount⟩ := hnonzero hmax
            rw [hnil] at hrows hcount
            refine ⟨hcount.trans hrows,?_⟩
            rw [← hrows,hnil]
            exact if_neg hmax
        have htake : (ids.map asI32).take page.rows = (ids.map some).map deliveredId := by
          rw [List.map_map,List.take_of_length_le (by rw [List.length_map,hall.1])]
          refine List.map_congr_left fun id _ => ?_
          rw [Function.comp_apply,deliveredId_some]
        rw [decodeSelectedRanges_eq hw hbody hids hall.1.ge hmarks,htake,hall.2,← hall.1,rowIds_replicate,
          selectAt_map]
      · have hmax : maxDefLevel ≠ 0 := fun hmax => hnil (hzero hmax).1
        have hflags : pageFlags maxDefLevel page levels = presentFlags maxDefLevel levels := if_neg hmax
        rw [decodeSelectedNullableRanges_eq hw hbody hids (hnonzero hmax).1 (hnonzero hmax).2.symm hmarks,hflags]
    rw [rowGroupLevels_eq hlevels,thenRead_some]
    rw [hdata,hread]
    have hknown : ∀ id, some id ∈ rowIds (pageFlags maxDefLevel page levels) ids → id < (s.dictionary.getD []).length := by
      intro id hid
      rw [hdictionary]
      exact hids id (mem_of_mem_rowIds hid)
    have hnext := h.append hrows hknown hsome hcursor
    rw [hdictionary] at hnext
    exact reads_some ⟨rfl,hnext⟩
  · refine reads_some ⟨rfl,?_⟩
    have hnext := h.pass hruns ((List.length_map (stringOf s.dictionary)).trans hrows) hsome hoverlap
    rw [hdictionary] at hnext
    exact hnext

theorem SelectedIdLoop.Inv.other {s' : SelectedIdLoop} (hruns : Marks p runs)
    (h : s.Inv p runs seen) (hlayout : page.isDirectIds maxDefLevel = false) (hlength : rows.length = page.rows)
    (hread : readIdDataPage maxDefLevel s page = .ok (some s')) :
    s'.dictionary = s.dictionary ∧ s'.Inv p runs (seen ++ rows) := by
  unfold readIdDataPage at hread
  cases hencoded : page.isDictionaryEncoded with
  | false =>
    rw [if_pos (by rw [hencoded]; rfl)] at hread
    cases hread
  | true =>
    rw [if_neg (by rw [hencoded]; decide)] at hread
    cases hdictionary : s.dictionary with
    | none =>
      rw [hdictionary] at hread
      cases hread
    | some entries =>
      rw [hdictionary] at hread
      dsimp only at hread
      split_ifs at hread with hoverlap
      · obtain ⟨read,hlevels,-⟩ := thenRead_eq_some hread
        exact (rowGroupLevels_other hlayout hencoded read hlevels).elim
      · cases hread
        have hnext := h.pass hruns hlength (by rw [hdictionary]; exact Option.some_ne_none entries) hoverlap
        rw [hdictionary] at hnext
        exact ⟨rfl,hnext⟩

theorem readIdPage_data (s : SelectedIdLoop) (h : page.isDictionary = false) :
    readIdPage maxDefLevel s page = readIdDataPage maxDefLevel s page := by
  cases page with
  | dictionary => cases h
  | data | dataV2 => rfl

/-- The loop over the pages of a column chunk. -/
theorem readIdPages_reads {dictionary : Option (List Bytes)} {pages : List ColumnPage}
    (hruns : Marks p runs) (hholds : ByteArrayColumnHolds maxDefLevel dictionary pages rows) :
    ∀ {seen : List (Option Bytes)} {s : SelectedIdLoop}, s.dictionary = dictionary → s.Inv p runs seen →
      (direct → DirectStrings maxDefLevel dictionary.isSome pages) →
      Reads direct (fun s' => s'.Inv p runs (seen ++ rows)) (readIdPages maxDefLevel pages s) := by
  induction hholds with
  | nil =>
    intro seen s hdictionary h hdirect
    rw [List.append_nil]
    exact reads_some h
  | @dictionary before buf numValues encoding pages rows hsize hholds ih =>
    intro seen s hbefore h hdirect
    rw [readIdPages,readIdPage]
    split_ifs with hdecline
    · refine reads_none fun hd => ?_
      obtain ⟨hplain,hnone,-⟩ := hdirect hd
      rcases hdecline with hdecline | hdecline
      · exact hdecline hplain
      · rw [hbefore,hnone] at hdecline
        cases hdecline
    · have hnone : s.dictionary = none := by simpa using (not_or.mp hdecline).2
      obtain rfl := h.dictionary hnone
      obtain ⟨ids,hids,hstrings,-⟩ := h.ids
      obtain rfl : ids = [] := List.map_eq_nil_iff.mp hstrings
      refine ih rfl ⟨h.pageRowStart,h.cursor,⟨[],hids,rfl,by simp⟩,?_,fun hno => ?_⟩ fun hd => (hdirect hd).2.2
      · exact (length_dictionary_le buf numValues).trans_lt hsize
      · cases hno
  | @data dictionary page pages first rest hpage hrest ih =>
    intro seen s hdictionary h hdirect
    have hdata : page.isDictionary = false := by
      cases hpage with
      | ids _ _ hlevels => exact (cursorLevels_spec hlevels).1
      | other _ hdata _ => exact hdata
    have hpage : Reads direct (fun s' => s'.dictionary = s.dictionary ∧ s'.Inv p runs (seen ++ first))
        (readIdPage maxDefLevel s page) := by
      rw [readIdPage_data s hdata]
      cases hpage with
      | ids hencoding hentries hlevels hbuf hw hbody hids =>
        subst hentries
        exact h.readIds hruns hencoding hdictionary hlevels hbuf hw hbody hids
      | other hlayout _ hlength =>
        refine ⟨fun s' hs' => h.other hruns hlayout hlength hs',fun hd => ?_⟩
        rw [((directStrings_data hdata).mp (hdirect hd)).2.1] at hlayout
        cases hlayout
    refine hpage.thenRead fun s' ⟨hsame,hnext⟩ => ?_
    have hmore := ih (hsame.trans hdictionary) hnext fun hd => ((directStrings_data hdata).mp (hdirect hd)).2.2.2
    rwa [List.append_assoc] at hmore

end Ids
section Fallback

theorem dictionaryFallbackId_eq {dictionary : List Bytes} (fallback : Bytes) (hsmall : dictionary.length < 2 ^ 31) :
    ∃ (id : ℕ) (dictionary' : List Bytes), dictionaryFallbackId dictionary fallback = .ok (id,dictionary') ∧
      dictionary'[id]? = some fallback ∧ ∀ i < dictionary.length, dictionary'[i]? = dictionary[i]? := by
  unfold dictionaryFallbackId
  cases hfind : dictionary.findIdx? (· = fallback) with
  | some index =>
    obtain ⟨hlt,hfound,-⟩ := List.findIdx?_eq_some_iff_getElem.mp hfind
    refine ⟨index,dictionary,if_pos (hlt.trans hsmall),?_,fun _ _ => rfl⟩
    rw [List.getElem?_eq_getElem hlt]
    exact congrArg some (of_decide_eq_true hfound)
  | none =>
    refine ⟨dictionary.length,dictionary ++ [fallback],if_pos hsmall,?_,fun i hi => List.getElem?_append_left hi⟩
    rw [List.getElem?_append_right le_rfl,Nat.sub_self]
    rfl

/-- What the row-group reader makes of a string: a NULL is the empty string. -/
def orEmpty (string : Option Bytes) : Option Bytes := some (string.getD [])

theorem delivered_strings {dictionary dictionary' : List Bytes} {fallbackId : ℕ} {ids : List (Option ℕ)}
    (hfallback : dictionary'[fallbackId]? = some []) (hsame : ∀ i < dictionary.length, dictionary'[i]? = dictionary[i]?)
    (hids : ∀ id, some id ∈ ids → id < dictionary.length) (hsmall : dictionary.length < 2 ^ 31) :
    ((ids.map deliveredId).map fun id => if id < 0 then (fallbackId : ℤ) else id).map (fun id => dictionary'[id.toNat]?) =
      (ids.map (stringOf (some dictionary))).map orEmpty := by
  rw [List.map_map,List.map_map,List.map_map]
  refine List.map_congr_left fun id hid => ?_
  cases id with
  | none =>
    have hnull : deliveredId none = -1 := rfl
    simpa [hnull,stringOf,orEmpty] using hfallback
  | some id =>
    have hlt := hids id hid
    have hvalue : deliveredId (some id) = (id : ℤ) := by
      rw [deliveredId_some,asI32_of_lt (hlt.trans hsmall)]
    have hentry : dictionary'[id]? = some dictionary[id] := by rw [hsame id hlt,List.getElem?_eq_getElem hlt]
    change dictionary'[(if deliveredId (some id) < 0 then (fallbackId : ℤ) else deliveredId (some id)).toNat]? =
      orEmpty (stringOf (some dictionary) (some id))
    rw [hvalue,if_neg (Int.natCast_nonneg id).not_gt,Int.toNat_natCast,hentry]
    simp [stringOf,orEmpty,hlt]

end Fallback
section Files
variable {direct : Prop} (predicate : ℤ → Bool) {number : PrimitiveColumnDesc} {string : ByteArrayColumnDesc}
  {group : I32ByteArrayRowGroup} {rows : List (ℤ × Option Bytes)}

theorem readIds_reads {p : ℕ → Prop} [DecidablePred p] {runs : List (ℕ × ℕ)} {pages : List ColumnPage}
    {strings : List (Option Bytes)} (hruns : Marks p runs)
    (hstring : string.physicalByteArray ∧ string.maxRepLevel = 0 ∧ string.maxDefLevel ≤ 1)
    (hholds : ByteArrayColumnHolds string.maxDefLevel none pages strings) (hne : strings ≠ [])
    (hdirect : direct → DirectStrings string.maxDefLevel false pages) :
    Reads direct (fun read => read.1.map (fun id => read.2[id.toNat]?) = (selectAt p 0 strings).map orEmpty)
      (readByteArrayDictionaryIdsSelectedForRowGroup string pages runs []) := by
  have hstart : ({ cursor := runs } : SelectedIdLoop).Inv p runs [] :=
    ⟨rfl,cursorPassed_start runs 0,⟨[],rfl,rfl,by simp⟩,Nat.two_pow_pos 31,fun _ => rfl⟩
  have hflat : (!string.physicalByteArray || decide (string.maxRepLevel ≠ 0) || decide (1 < string.maxDefLevel)) = false := by
    simp [hstring.1,hstring.2.1,hstring.2.2]
  unfold readByteArrayDictionaryIdsSelectedForRowGroup
  rw [if_neg (by rw [hflat]; decide)]
  refine (readIdPages_reads hruns hholds rfl hstart hdirect).thenRead fun s h => ?_
  rw [List.nil_append] at h
  cases hdictionary : s.dictionary with
  | none => exact (hne (h.dictionary hdictionary)).elim
  | some dictionary =>
    obtain ⟨ids,hids,hstrings,hknown⟩ := h.ids
    have hsmall := h.small
    rw [hdictionary,Option.getD_some] at hknown hsmall
    rw [hdictionary] at hstrings
    obtain ⟨fallbackId,dictionary',hfallback,hentry,hsame⟩ := dictionaryFallbackId_eq [] hsmall
    dsimp only
    rw [hfallback]
    refine reads_some ?_
    rw [hids,delivered_strings hentry hsame hknown hsmall,hstrings]

def rowGroupReaderRows (rows : List (ℤ × Option Bytes)) : List (ℤ × Option Bytes) :=
  (rows.filter fun row => predicate row.1).map fun row => (row.1,orEmpty row.2)

theorem rowGroupReaderRows_append (rows rows' : List (ℤ × Option Bytes)) :
    rowGroupReaderRows predicate (rows ++ rows') = rowGroupReaderRows predicate rows ++ rowGroupReaderRows predicate rows' := by
  rw [rowGroupReaderRows,List.filter_append,List.map_append]
  rfl

theorem ReadRecords.Gives.checked {read : ReadRecords} {numbers : List ℤ} (h : read.Gives number.maxDefLevel numbers) :
    ¬(read.records ≠ numbers.length ∨ read.values.length ≠ numbers.length ∨
      !directDefLevelsMatch read.levelCount numbers.length (number.maxDefLevel = 0) ∨
        !directAllPresent (number.maxDefLevel = 0) read.levels) := by
  have hcount : directDefLevelsMatch read.levelCount numbers.length (number.maxDefLevel = 0) = true := by
    rw [directDefLevelsMatch,h.levelCount]
    split_ifs <;> simp
  have hpresent : directAllPresent (number.maxDefLevel = 0) read.levels = true := by
    by_cases hmax : number.maxDefLevel = 0
    · simp [directAllPresent,hmax]
    · rw [directAllPresent,h.levels hmax,Bool.or_eq_true]
      refine .inr (List.all_eq_true.mpr fun level hlevel => ?_)
      rw [List.eq_of_mem_replicate hlevel]
      simpa using hmax
  rw [h.records,h.values,hcount,hpresent]
  simp

theorem readRowGroup_reads (hint32 : number.physicalType = .int32)
    (hstring : string.physicalByteArray ∧ string.maxRepLevel = 0 ∧ string.maxDefLevel ≤ 1) (h : group.Holds number string rows)
    (hdirect : direct → DirectStrings string.maxDefLevel false group.stringPages) :
    Reads direct (fun calls => deliveredRows calls = rowGroupReaderRows predicate rows)
      (readRowGroup number string predicate group) := by
  have hnumbers : group.numRows = (rows.map Prod.fst).length := by rw [h.numRows,List.length_map]
  obtain ⟨hmarks,hcount⟩ := selectNumbers_marks predicate (rows.map Prod.fst)
  have hpassing : (rows.map Prod.fst).filter predicate = (rows.filter fun row => predicate row.1).map Prod.fst := List.filter_map
  unfold readRowGroup
  dsimp only
  rw [if_neg (not_not.mpr hint32),hnumbers,if_neg h.numberRecords.checked,h.numberRecords.values,hcount,if_neg (not_not.mpr rfl)]
  by_cases hnone : ((rows.map Prod.fst).filter predicate).length = 0
  · rw [if_pos hnone]
    rw [hpassing,List.length_map] at hnone
    refine reads_some ?_
    rw [rowGroupReaderRows,List.eq_nil_of_length_eq_zero hnone]
    rfl
  · rw [if_neg hnone]
    have hne : rows.map Prod.snd ≠ [] := by
      intro hempty
      rw [List.map_eq_nil_iff.mp hempty] at hnone
      exact hnone rfl
    refine (readIds_reads hmarks hstring h.strings hne hdirect).thenRead fun (ids,dictionary) hids => ?_
    rw [selectAt_passes] at hids
    have hlength := congrArg List.length hids
    rw [List.length_map,List.length_map,List.length_map] at hlength
    rw [hpassing,if_neg (by rw [List.length_map,hlength]; exact not_not.mpr rfl)]
    refine reads_some ?_
    rw [deliveredRows,List.flatMap_singleton]
    dsimp only
    rw [hids,List.map_map,List.zip_map']
    rfl

end Files
section Readers
variable (predicate : ℤ → Bool) {direct : Prop} {file : I32ByteArrayFile} {rows : List (ℤ × Option Bytes)}

theorem readRowGroups_reads {read : I32ByteArrayRowGroup → Result (Option (List SelectedCall))}
    (delivered : List (ℤ × Option Bytes) → List (ℤ × Option Bytes)) (hnil : delivered [] = [])
    (happend : ∀ rows rows', delivered (rows ++ rows') = delivered rows ++ delivered rows') {groups : List I32ByteArrayRowGroup}
    {parts : List (List (ℤ × Option Bytes))}
    (h : List.Forall₂ (fun group part => Reads direct (fun calls => deliveredRows calls = delivered part) (read group)) groups parts) :
    Reads direct (fun calls => deliveredRows calls = delivered parts.flatten) (readRowGroups read groups) := by
  induction h with
  | nil => exact reads_some hnil.symm
  | cons hgroup _ ih =>
    rw [readRowGroups]
    refine hgroup.thenRead fun calls hcalls => ih.thenRead fun more hmore => reads_some ?_
    rw [deliveredRows_append,hcalls,hmore,List.flatten_cons,happend]

theorem pageReader_reads (h : file.Holds rows) :
    Reads file.DirectLayout (fun calls => deliveredRows calls = pageReaderRows predicate rows)
      (scanParquetI32ByteArraySelectedByI32PageReader file predicate) := by
  obtain ⟨hint32,hflat⟩ := h.number
  obtain ⟨hbytes,hflat',-⟩ := h.string
  obtain ⟨parts,hgroups,rfl⟩ := h.rowGroups
  unfold scanParquetI32ByteArraySelectedByI32PageReader
  by_cases hrequired : file.number.maxDefLevel = 0
  · rw [if_neg (by simp [hint32,hflat,hbytes,hflat',hrequired])]
    refine readRowGroups_reads (pageReaderRows predicate) rfl (fun rows rows' => List.filter_append rows rows') ?_
    have hdirect : ∀ group ∈ file.rowGroups, file.DirectLayout →
        DirectNumbers group.numberPages ∧ DirectStrings file.string.maxDefLevel false group.stringPages :=
      fun group hgroup hdirect => hdirect.2 group hgroup
    refine ((List.forall₂_and_left _ _).mpr ⟨hdirect,hgroups⟩).imp fun group part ⟨hdirect,hpart⟩ => ?_
    have hnumbers := hpart.numbers
    rw [hrequired] at hnumbers
    have hstart : PageScan.Before file.DirectLayout file.string.maxDefLevel group.numRows
        { numbers := { pages := group.numberPages }, strings := { pages := group.stringPages } } part := {
      numbers := ⟨⟨none,_,hnumbers,rfl⟩,Nat.le_refl 0,fun hd => (hdirect hd).1⟩
      strings := ⟨⟨[],_,⟨rfl,rfl,Nat.le_refl 0,rfl,nofun,fun hne => (hne rfl).elim,Nat.two_pow_pos 31,.inl rfl⟩,hpart.strings,rfl⟩,
        fun hd => (hdirect hd).2⟩
      rowsRead := by rw [hpart.numRows,Nat.zero_add] }
    exact (hstart.readWindows predicate hpart.numRows.ge).thenRead fun s hs => reads_some hs
  · rw [if_pos (by simp [hrequired])]
    exact reads_none fun hdirect => hrequired hdirect.1

theorem rowGroupReader_reads (h : file.Holds rows) :
    Reads file.DirectLayout (fun calls => deliveredRows calls = rowGroupReaderRows predicate rows)
      (scanParquetI32ByteArraySelectedByI32Reader file predicate) := by
  obtain ⟨parts,hgroups,rfl⟩ := h.rowGroups
  have hdirect : ∀ group ∈ file.rowGroups, file.DirectLayout → DirectStrings file.string.maxDefLevel false group.stringPages :=
    fun group hgroup hdirect => (hdirect.2 group hgroup).2
  refine readRowGroups_reads (rowGroupReaderRows predicate) rfl (rowGroupReaderRows_append predicate) ?_
  exact ((List.forall₂_and_left _ _).mpr ⟨hdirect,hgroups⟩).imp fun group part ⟨hdirect,hpart⟩ =>
    readRowGroup_reads predicate h.number.1 h.string hpart hdirect

theorem readerRows_eq_iff (rows : List (ℤ × Option Bytes)) :
    pageReaderRows predicate rows = rowGroupReaderRows predicate rows ↔ ∀ row ∈ rows, predicate row.1 → row.2.isSome := by
  have hpage : pageReaderRows predicate rows = (rows.filter fun row => predicate row.1).filter fun row => row.2.isSome := by
    rw [pageReaderRows,List.filter_filter]
    exact List.filter_congr fun row _ => Bool.and_comm _ _
  have hselected : (∀ row ∈ rows, predicate row.1 → row.2.isSome) ↔
      ∀ row ∈ rows.filter fun row => predicate row.1, row.2.isSome := by
    simp only [List.mem_filter,and_imp]
  rw [hpage,hselected,rowGroupReaderRows]
  generalize (rows.filter fun row => predicate row.1) = selected
  constructor
  · intro heq
    have hlength := congrArg List.length heq
    rw [List.length_map] at hlength
    exact List.length_filter_eq_length_iff.mp hlength
  · intro hall
    have hkeep : selected.map (fun row => (row.1,orEmpty row.2)) = selected.map id := List.map_congr_left fun row hrow => by
      obtain ⟨string,hstring⟩ := Option.isSome_iff_exists.mp (hall row hrow)
      rw [hstring]
      exact Prod.ext rfl hstring.symm
    rw [List.filter_eq_self.mpr hall,hkeep,List.map_id]

/-- Both readers read a direct layout to its end, and whenever both read a file, they deliver the same rows if and only if
no selected row has a NULL for its string. -/
theorem readers_agree_iff (hfile : file.Holds rows) :
    (file.DirectLayout → (∃ calls, scanParquetI32ByteArraySelectedByI32PageReader file predicate = .ok (some calls)) ∧
        ∃ calls, scanParquetI32ByteArraySelectedByI32Reader file predicate = .ok (some calls)) ∧
      ∀ calls calls', scanParquetI32ByteArraySelectedByI32PageReader file predicate = .ok (some calls) →
        scanParquetI32ByteArraySelectedByI32Reader file predicate = .ok (some calls') →
          (deliveredRows calls = deliveredRows calls' ↔ ∀ row ∈ rows, predicate row.1 → row.2.isSome) := by
  have hpage := pageReader_reads predicate hfile
  have hgroup := rowGroupReader_reads predicate hfile
  refine ⟨fun hdirect => ⟨hpage.complete hdirect,hgroup.complete hdirect⟩,fun calls calls' hcalls hcalls' => ?_⟩
  rw [hpage.sound calls hcalls,hgroup.sound calls' hcalls']
  exact readerRows_eq_iff predicate rows

end Readers

def nullStringGroup : I32ByteArrayRowGroup where
  numRows := 2
  numberPages := [.data [1,0,0,0,2,0,0,0] 2 .plain .rle]
  numberRecords := ⟨2,[1,2],[],2⟩
  stringPages := [.dictionary [1,0,0,0,97] 1 .plain,.dataV2 [2,1,2,0,1,2,0] 2 .rleDictionary 1 4 0]

def nullStringFile : I32ByteArrayFile := ⟨requiredI32,⟨true,0,1⟩,[nullStringGroup]⟩

theorem nullStringFile_holds : nullStringFile.Holds [(1,some [97]),(2,none)] := by
  have hplain : PageHolds 0 4 none (.data [1,0,0,0,2,0,0,0] 2 .plain .rle) (plainInts 4 [1,0,0,0,2,0,0,0] 0 2) :=
    .plain rfl rfl (by decide)
  have hints : plainInts 4 [1,0,0,0,2,0,0,0] 0 2 = [1,2] := by decide +kernel
  have hnumbers : ColumnHolds 0 4 none [.data [1,0,0,0,2,0,0,0] 2 .plain .rle] ([1,2] ++ []) := .data (hints ▸ hplain) (.nil _)
  have hrun : HybridRun 1 ([2] ++ [0]) [0] := .repeated (n := 1) (headerBytes_singleton rfl (by decide)) (by decide) rfl (by decide)
  have hbody : HybridEncodes 1 [2,0] [0] := ⟨[],.cons hrun .nil⟩
  have hpage : ByteArrayPageHolds 1 (some [[97]]) (.dataV2 [2,1,2,0,1,2,0] 2 .rleDictionary 1 4 0) [some [97],none] :=
    @ByteArrayPageHolds.ids 1 _ _ [[97]] 4 [1,0] 1 [2,0] [0] rfl rfl (by decide +kernel) rfl (by decide) hbody (by simp)
  have hstrings : ByteArrayColumnHolds 1 none [.dictionary [1,0,0,0,97] 1 .plain,.dataV2 [2,1,2,0,1,2,0] 2 .rleDictionary 1 4 0]
      ([some [97],none] ++ []) := .dictionary (by decide) (.data hpage (.nil _))
  have hgroup : nullStringGroup.Holds requiredI32 ⟨true,0,1⟩ [(1,some [97]),(2,none)] :=
    ⟨rfl,hnumbers,⟨rfl,rfl,rfl,fun h => (h rfl).elim⟩,hstrings⟩
  exact ⟨⟨rfl,rfl⟩,⟨rfl,rfl,le_rfl⟩,[_],.cons hgroup .nil,rfl⟩

/-- With the first row selected only, both readers deliver it. -/
theorem readers_agree_first :
    (nullStringFile.DirectLayout →
        (∃ calls, scanParquetI32ByteArraySelectedByI32PageReader nullStringFile (· = 1) = .ok (some calls)) ∧
          ∃ calls, scanParquetI32ByteArraySelectedByI32Reader nullStringFile (· = 1) = .ok (some calls)) ∧
      ∀ calls calls', scanParquetI32ByteArraySelectedByI32PageReader nullStringFile (· = 1) = .ok (some calls) →
        scanParquetI32ByteArraySelectedByI32Reader nullStringFile (· = 1) = .ok (some calls') →
          (deliveredRows calls = deliveredRows calls' ↔
            ∀ row ∈ [((1 : ℤ),some ([97] : Bytes)),(2,none)], decide (row.1 = 1) = true → row.2.isSome) :=
  readers_agree_iff _ nullStringFile_holds

set_option synthInstance.maxSize 1000 in
/-- The row with the NULL is left out by one reader and delivered with the empty string by the other. -/
theorem null_string_delivered_once :
    nullStringFile.Holds [(1,some [97]),(2,none)] ∧ ∃ calls calls',
      scanParquetI32ByteArraySelectedByI32PageReader nullStringFile (fun _ => true) = .ok (some calls) ∧
        scanParquetI32ByteArraySelectedByI32Reader nullStringFile (fun _ => true) = .ok (some calls') ∧
          deliveredRows calls = [(1,some [97])] ∧ deliveredRows calls' = [(1,some [97]),(2,some [])] :=
  ⟨nullStringFile_holds,[([1],[0],[[97]])],[([1,2],[0,1],[[97],[]])],by decide +kernel,by decide +kernel,rfl,rfl⟩

end Dodam.Storage
