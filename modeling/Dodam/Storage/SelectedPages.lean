import Mathlib.Data.List.TakeWhile
import Dodam.Execution.Error
import Dodam.Foundation.Selection

/-! # Reading the selected values of a page

The direct reader of 64-bit integers goes through the pages of a column chunk and decodes only
the rows of the selected runs.
-/
namespace Dodam.Storage
open Foundation Execution

/-- The definition levels of a page of format version 1. -/
inductive V1Levels
  | rle (levels : List ℕ)
  | bitPacked (lengthFits : Bool)

inductive PageLevels
  | v1 (levels : V1Levels)
  | v2 (numNulls : ℕ) (levels : List ℕ)

inductive PageValues
  | plain (values : List ℤ)
  | dictionary (ids : List ℕ)
  | other

structure DataPage where
  numValues : ℕ
  levels : PageLevels
  values : PageValues

inductive Page
  | dictionary (values : List ℤ) (plain : Bool)
  | data (page : DataPage)

/-- A leaf column of a schema, with its path of field names. -/
structure ColumnDesc where
  path : List String
  physicalInt64 : Bool
  maxRepLevel : ℕ
  maxDefLevel : ℕ
  decimal128 : Option (ℕ × ℤ)

section Copy

def copySelectedI64RequiredPage (values : List ℤ) (pageRows : ℕ) (ranges : List (ℕ × ℕ)) : Result (List ℤ) :=
  if values.length < pageRows then unsupportedSql "selected i64 page payload length mismatch"
  else .ok (ranges.flatMap fun r => slice values r.1 r.2)

/-- The values of the ranges up to the first range with a NULL. -/
def copyPresentRanges (present : List Bool) (values : List ℤ) : List (ℕ × ℕ) → List ℤ
  | [] => []
  | (a,b) :: ranges =>
    if (slice present a b).count true ≠ b - a then []
    else (values.drop ((present.take a).count true)).take (b - a) ++ copyPresentRanges present values ranges

def copySelectedI64NullablePage (present : List Bool) (values : List ℤ) (pageRows : ℕ) (ranges : List (ℕ × ℕ)) :
    Result (List ℤ) :=
  if present.length ≠ pageRows then .ok []
  else if values.length < present.count true then
    unsupportedSql "selected nullable i64 page payload length mismatch"
  else .ok (copyPresentRanges present values ranges)

/-- The ids of the ranges; decoding stops at a missing id or at one behind the dictionary. -/
def decodeDictionaryIndicesSelectedRanges (values dictionaryLen : ℕ) :
    List (ℕ × ℕ) → ℕ → List ℕ → List (Option ℕ)
  | [], _, _ => []
  | (a,b) :: ranges, cursor, ids =>
    if values < a ∨ values < b ∨ a < cursor then []
    else
      let taken := ((ids.drop (a - cursor)).take (b - a)).takeWhile (· < dictionaryLen)
      if taken.length = b - a then taken.map some ++
        decodeDictionaryIndicesSelectedRanges values dictionaryLen ranges b ((ids.drop (a - cursor)).drop (b - a))
      else taken.map some

/-- The ids of the rows with the given flags, and the ids left unless decoding stops. -/
def decodePresentIds (dictionaryLen : ℕ) : List Bool → List ℕ → List (Option ℕ) × Option (List ℕ)
  | [], ids => ([],some ids)
  | false :: present, ids =>
    let (out,rest) := decodePresentIds dictionaryLen present ids
    (none :: out,rest)
  | true :: _, [] => ([],none)
  | true :: present, id :: ids =>
    if dictionaryLen ≤ id then ([],none)
    else
      let (out,rest) := decodePresentIds dictionaryLen present ids
      (some id :: out,rest)

/-- The ids of the ranges of a page with NULLs; a NULL is `none`. -/
def decodeDictionaryIndicesSelectedNullableRanges (present : List Bool) (values dictionaryLen : ℕ) :
    List (ℕ × ℕ) → ℕ → ℕ → List ℕ → List (Option ℕ)
  | [], _, _, _ => []
  | (a,b) :: ranges, cursor, decoded, ids =>
    let skipPresent := (slice present cursor a).count true
    if a < cursor ∨ present.length < b then []
    else if values < decoded + skipPresent then []
    else
      let (out,rest) := decodePresentIds dictionaryLen (slice present a b) (ids.drop skipPresent)
      match rest with
      | none => out
      | some rest => out ++ decodeDictionaryIndicesSelectedNullableRanges present values dictionaryLen ranges b
          (decoded + skipPresent + (slice present a b).count true) rest

def dictionaryValue (dictionary : List ℤ) : Option ℕ → Result ℤ
  | none => unsupportedSql "selected nullable dictionary i64 contains null"
  | some id =>
    match dictionary[id]? with
    | some value => .ok value
    | none => unsupportedSql "selected dictionary i64 id out of range"

def appendDictionarySelectedI64Page (ids : List ℕ) (values : ℕ) (dictionary : Option (List ℤ)) (pageRows : ℕ)
    (ranges : List (ℕ × ℕ)) (nullable : Option (List Bool)) : Result (List ℤ) :=
  match dictionary with
  | none => unsupportedSql "dictionary selected i64 page missing dictionary"
  | some dictionary =>
    (match nullable with
      | some present =>
        if present.length ≠ pageRows then []
        else decodeDictionaryIndicesSelectedNullableRanges present values dictionary.length ranges 0 0 ids
      | none => decodeDictionaryIndicesSelectedRanges values dictionary.length ranges 0 ids).mapM
        (dictionaryValue dictionary)

end Copy

def readRequiredPage (page : DataPage) (dictionary : Option (List ℤ)) (ranges : List (ℕ × ℕ)) :
    Result (Option (List ℤ)) :=
  match page.values with
  | .plain values => (copySelectedI64RequiredPage values page.numValues ranges).map some
  | .dictionary ids =>
    (appendDictionarySelectedI64Page ids page.numValues dictionary page.numValues ranges none).map some
  | .other => .ok none

def readNullablePage (page : DataPage) (present : List Bool) (dictionary : Option (List ℤ))
    (ranges : List (ℕ × ℕ)) : Result (Option (List ℤ)) :=
  match page.values with
  | .plain values => (copySelectedI64NullablePage present values page.numValues ranges).map some
  | .dictionary ids =>
    (appendDictionarySelectedI64Page ids (present.count true) dictionary page.numValues ranges
      (some present)).map some
  | .other => .ok none

/-- The selected values of a page, or none when its layout is not read. -/
def readSelectedPage (maxDefLevel : ℕ) (page : DataPage) (dictionary : Option (List ℤ)) (ranges : List (ℕ × ℕ)) :
    Result (Option (List ℤ)) :=
  if maxDefLevel = 0 then readRequiredPage page dictionary ranges
  else
    match page.levels with
    | .v1 (.bitPacked lengthFits) => if lengthFits then .ok none else .error (.err .arrow)
    | .v1 (.rle levels) => readNullablePage page (levels.map (· == maxDefLevel)) dictionary ranges
    | .v2 numNulls levels =>
      if numNulls = 0 then readRequiredPage page dictionary ranges
      else readNullablePage page (levels.map (· == maxDefLevel)) dictionary ranges

/-- The loop over the pages: the first row of the next page, the runs not yet behind it, the
dictionary and the values read. -/
structure PageLoop where
  pageRowStart : ℕ := 0
  cursor : List (ℕ × ℕ)
  dictionary : Option (List ℤ) := none
  output : List ℤ

def advanceRunCursor (cursor : List (ℕ × ℕ)) (pageStart : ℕ) : List (ℕ × ℕ) :=
  cursor.dropWhile fun r => r.1 + r.2 ≤ pageStart

def runsOverlapFrom (cursor : List (ℕ × ℕ)) (start stop : ℕ) : Bool :=
  match cursor with
  | [] => false
  | (runStart,runLen) :: _ => runStart < stop && start < runStart + runLen

def PageValues.read : PageValues → Bool
  | other => false
  | _ => true

def readPage (maxDefLevel : ℕ) (runs : List (ℕ × ℕ)) (s : PageLoop) : Page → Result (Option PageLoop)
  | .dictionary values plain =>
    if !plain || s.dictionary.isSome then .ok none else .ok (some { s with dictionary := some values })
  | .data page =>
    if !page.values.read then .ok none
    else
      let pageRowEnd := s.pageRowStart + page.numValues
      let cursor := advanceRunCursor s.cursor s.pageRowStart
      if runsOverlapFrom cursor s.pageRowStart pageRowEnd then
        (readSelectedPage maxDefLevel page s.dictionary
          (localRanges s.pageRowStart page.numValues runs)).map fun values =>
            values.map fun values => { s with
              pageRowStart := pageRowEnd
              cursor := cursor
              output := s.output ++ values }
      else .ok (some { s with pageRowStart := pageRowEnd, cursor := cursor })

def readPages (maxDefLevel : ℕ) (runs : List (ℕ × ℕ)) : List Page → PageLoop → Result (Option PageLoop)
  | [], s => .ok (some s)
  | page :: pages, s => (readPage maxDefLevel runs s page).bind fun
      | none => .ok none
      | some s => readPages maxDefLevel runs pages s

/-- The output with the selected values of a column chunk behind it. -/
def readPlainI64SelectedRuns (column : ColumnDesc) (pages : List Page) (records : ℕ) (runs : List (ℕ × ℕ))
    (output : List ℤ) : Result (Option (List ℤ)) :=
  if !column.physicalInt64 || column.maxRepLevel ≠ 0 || 1 < column.maxDefLevel then .ok none
  else
    (readPages column.maxDefLevel runs pages { cursor := runs, output := output }).map fun s =>
      s.bind fun s => if s.pageRowStart ≠ records then none else some s.output

end Dodam.Storage

/-! ## The selected values are those of the selected rows

A page holds its rows: its levels tell the NULLs and its values, or the
dictionary values of its ids, are the others. Reading the ranges of a page gives
the values of the rows in them, or fewer values where a row is NULL; so a column
chunk that gives as many values as rows are selected gives the selected rows.
-/
namespace Dodam.Storage
open Foundation Execution

/-- The leaf has the layout that the direct reader reads. -/
def ColumnDesc.DirectI64 (column : ColumnDesc) : Prop :=
  column.physicalInt64 ∧ column.maxRepLevel = 0 ∧ column.maxDefLevel ≤ 1

def PageLevels.Flags (maxDefLevel : ℕ) (rows : List (Option ℤ)) : PageLevels → Prop
  | .v1 (.rle levels) => rows.map Option.isSome = levels.map (· == maxDefLevel)
  | .v1 (.bitPacked _) => True
  | .v2 numNulls levels =>
    rows.map Option.isSome = levels.map (· == maxDefLevel) ∧ numNulls = (rows.filter Option.isNone).length

def PageValues.Stores (dictionary : Option (List ℤ)) (rows : List (Option ℤ)) : PageValues → Prop
  | .plain values => rows.filterMap id <+: values
  | .dictionary ids => ∃ values, dictionary = some values ∧ ∃ rowIds : List (Option ℕ),
      rowIds.filterMap id <+: ids ∧ (∀ i ∈ rowIds.filterMap id, i < values.length) ∧
        rows = rowIds.map fun rowId => rowId.bind fun i => values[i]?
  | .other => True

structure DataPage.Holds (maxDefLevel : ℕ) (dictionary : Option (List ℤ)) (page : DataPage)
    (rows : List (Option ℤ)) : Prop where
  length : rows.length = page.numValues
  required : maxDefLevel = 0 → ∀ row ∈ rows, row.isSome
  flags : maxDefLevel ≠ 0 → page.levels.Flags maxDefLevel rows
  values : page.values.Stores dictionary rows

/-- The pages hold the rows of a column chunk. -/
inductive ChunkHolds (maxDefLevel : ℕ) : Option (List ℤ) → List Page → List (Option ℤ) → Prop
  | nil {dictionary : Option (List ℤ)} : ChunkHolds maxDefLevel dictionary [] []
  | dictionary {dictionary : Option (List ℤ)} {values : List ℤ} {plain : Bool} {pages : List Page}
      {rows : List (Option ℤ)} (h : ChunkHolds maxDefLevel (some values) pages rows) :
      ChunkHolds maxDefLevel dictionary (.dictionary values plain :: pages) rows
  | data {dictionary : Option (List ℤ)} {page : DataPage} {pages : List Page} {first rest : List (Option ℤ)}
      (hpage : page.Holds maxDefLevel dictionary first) (h : ChunkHolds maxDefLevel dictionary pages rest) :
      ChunkHolds maxDefLevel dictionary (.data page :: pages) (first ++ rest)

section Plain
variable {p : ℕ → Prop} {lo : ℕ} {ranges : List (ℕ × ℕ)} {rows : List (Option ℤ)}

theorem RangesOf.slices_values {values rest : List ℤ} (h : RangesOf p values.length lo ranges) :
    (ranges.flatMap fun r => slice (values ++ rest) r.1 r.2).map some =
      ranges.flatMap fun r => slice (values.map some) r.1 r.2 := by
  induction h with
  | nil => rfl
  | cons hlo hle hhi _ _ _ ih =>
    rw [List.flatMap_cons,List.flatMap_cons,List.map_append,ih,slice_append_of_le hle hhi,slice_map]

theorem copyPresentRanges_covers {present : List Bool} {values : List ℤ} (h : RangesOf p rows.length lo ranges)
    (hscattered : Scattered present values rows) :
    Covers (copyPresentRanges present values ranges) (ranges.flatMap fun r => slice rows r.1 r.2) := by
  induction h with
  | nil => exact covers_nil _
  | @cons lo a b ranges hlo hle hhi _ _ _ ih =>
    rw [copyPresentRanges,List.flatMap_cons]
    split_ifs with hcount
    · exact covers_nil _
    · exact (covers_of_eq (hscattered.of_slice hhi (not_not.mp hcount))).append ih

end Plain

section Ids
variable {p : ℕ → Prop} {lo : ℕ} {ranges : List (ℕ × ℕ)} {ids : List ℕ} {rowIds : List (Option ℕ)}

theorem takeWhile_slice {n a b : ℕ} (h : ∀ id ∈ ids, id < n) :
    (slice ids a b).takeWhile (· < n) = slice ids a b := by
  refine List.takeWhile_eq_self_iff.mpr fun id hid => ?_
  exact decide_eq_true (h id (List.mem_of_mem_drop (List.mem_of_mem_take hid)))

theorem decodeRequired_eq (rest : List ℕ) {n : ℕ} (hids : ∀ id ∈ ids, id < n)
    (h : RangesOf p ids.length lo ranges) :
    decodeDictionaryIndicesSelectedRanges ids.length n ranges lo ((ids ++ rest).drop lo) =
      ranges.flatMap fun r => slice (ids.map some) r.1 r.2 := by
  induction h with
  | nil => rfl
  | @cons lo a b ranges hlo hle hhi _ _ _ ih =>
    have hdrop : ((ids ++ rest).drop lo).drop (a - lo) = (ids ++ rest).drop a := by
      rw [List.drop_drop,Nat.add_sub_cancel' hlo]
    have hnext : ((ids ++ rest).drop a).drop (b - a) = (ids ++ rest).drop b := by
      rw [List.drop_drop,Nat.add_sub_cancel' hle]
    have htaken : (((ids ++ rest).drop a).take (b - a)).takeWhile (· < n) = slice ids a b := by
      rw [← slice,slice_append_of_le hle hhi,takeWhile_slice hids]
    rw [decodeDictionaryIndicesSelectedRanges,if_neg (by omega)]
    simp only [hdrop,htaken,hnext]
    rw [if_pos (length_slice hhi),ih,List.flatMap_cons,slice_map]

theorem decodePresentIds_eq {present : List Bool} {n : ℕ}
    (h : Scattered present ids rowIds) (hids : ∀ i ∈ rowIds.filterMap id, i < n) :
    decodePresentIds n present ids = (rowIds,some (ids.drop (present.count true))) := by
  obtain ⟨rfl,hstored⟩ := h
  induction rowIds generalizing ids with
  | nil => rfl
  | cons rowId rowIds ih =>
    cases rowId with
    | none =>
      rw [List.map_cons]
      show (none :: (decodePresentIds n _ ids).1,(decodePresentIds n _ ids).2) = _
      rw [ih hids hstored]
      rfl
    | some i =>
      rw [List.filterMap_cons_some (f := id) (b := i) rfl] at hstored hids
      obtain ⟨rest,hrest⟩ := hstored
      cases hrest
      have hi : ¬n ≤ i := by
        have := hids i List.mem_cons_self
        omega
      have hrec := ih (fun j hj => hids j (List.mem_cons_of_mem _ hj)) (List.prefix_append _ rest)
      rw [List.map_cons]
      show decodePresentIds n (true :: rowIds.map Option.isSome) (i :: (rowIds.filterMap id ++ rest)) = _
      rw [decodePresentIds,if_neg hi,hrec,Option.isSome_some,List.count_cons_self,List.cons_append,
        List.drop_succ_cons]

theorem decodeNullable_eq {present : List Bool} {n : ℕ}
    (hscattered : Scattered present ids rowIds) (hids : ∀ i ∈ rowIds.filterMap id, i < n)
    (h : RangesOf p rowIds.length lo ranges) :
    decodeDictionaryIndicesSelectedNullableRanges present (present.count true) n ranges lo
        ((present.take lo).count true) (ids.drop ((present.take lo).count true)) =
      ranges.flatMap fun r => slice rowIds r.1 r.2 := by
  induction h with
  | nil => rfl
  | @cons lo a b ranges hlo hle hhi _ _ _ ih =>
    have hskip : (present.take lo).count true + (slice present lo a).count true = (present.take a).count true := by
      rw [← List.count_append,← take_eq_take_append_slice hlo]
    have hnext : (present.take a).count true + (slice present a b).count true = (present.take b).count true := by
      rw [← List.count_append,← take_eq_take_append_slice hle]
    have hvalues : (present.take a).count true ≤ present.count true := (List.take_sublist a present).count_le true
    have hlen := hscattered.length_eq
    have hslice : decodePresentIds n (slice present a b) (ids.drop ((present.take a).count true)) =
        (slice rowIds a b,some ((ids.drop ((present.take a).count true)).drop ((slice present a b).count true))) := by
      refine decodePresentIds_eq ((hscattered.drop a).take (b - a)) fun i hi => hids i ?_
      obtain ⟨x,hx,hxi⟩ := List.mem_filterMap.mp hi
      exact List.mem_filterMap.mpr ⟨x,List.mem_of_mem_drop (List.mem_of_mem_take hx),hxi⟩
    rw [decodeDictionaryIndicesSelectedNullableRanges]
    rw [if_neg (by omega),hskip,if_neg (by omega),List.drop_drop,hskip,hslice]
    dsimp only
    rw [List.drop_drop,hnext,ih,List.flatMap_cons]

theorem mapM_dictionaryValue {dictionary values : List ℤ}
    (h : rowIds.mapM (dictionaryValue dictionary) = .ok values) :
    values.map some = rowIds.map fun rowId => rowId.bind fun i => dictionary[i]? := by
  have hall := mapM_ok_iff.mp h
  clear h
  induction hall with
  | nil => rfl
  | @cons rowId value rowIds values hvalue _ ih =>
    rw [List.map_cons,List.map_cons,ih]
    cases rowId with
    | none => cases hvalue
    | some id =>
      rw [dictionaryValue] at hvalue
      cases hget : dictionary[id]? with
      | none =>
        rw [hget] at hvalue
        cases hvalue
      | some v =>
        rw [hget] at hvalue
        cases hvalue
        rw [Option.bind_some,hget]

theorem flatMap_slice_map {α β : Type*} (f : α → β) (l : List α) (ranges : List (ℕ × ℕ)) :
    (ranges.flatMap fun r => slice l r.1 r.2).map f = ranges.flatMap fun r => slice (l.map f) r.1 r.2 := by
  rw [List.map_flatMap]
  exact congrArg (ranges.flatMap ·) (funext fun r => (slice_map f l r.1 r.2).symm)

end Ids

section Page
variable {p : ℕ → Prop} {ranges : List (ℕ × ℕ)} {rows : List (Option ℤ)} {dictionary : Option (List ℤ)}
  {page : DataPage}

variable {values : List ℤ}

/-- A page without a NULL, read without its levels. -/
theorem readRequiredPage_eq (hlength : rows.length = page.numValues)
    (hall : ∀ row ∈ rows, row.isSome) (hstores : page.values.Stores dictionary rows)
    (hranges : RangesOf p page.numValues 0 ranges) (h : readRequiredPage page dictionary ranges = .ok (some values)) :
    values.map some = ranges.flatMap fun r => slice rows r.1 r.2 := by
  unfold readRequiredPage at h
  cases hvalues : page.values with
  | plain stored =>
    rw [hvalues] at h hstores
    obtain ⟨present,rest,rfl,rfl⟩ := exists_values_of_forall_isSome hall hstores
    rw [List.length_map] at hlength
    dsimp only at h
    rw [copySelectedI64RequiredPage,if_neg (by rw [List.length_append]; omega)] at h
    cases h
    exact RangesOf.slices_values (hlength ▸ hranges)
  | dictionary ids =>
    rw [hvalues] at h hstores
    obtain ⟨entries,rfl,rowIds,hfront,hbound,rfl⟩ := hstores
    have hsome : ∀ rowId ∈ rowIds, rowId.isSome := by
      intro rowId hmem
      cases rowId with
      | none => exact absurd (hall _ (List.mem_map_of_mem hmem)) (by simp)
      | some i => rfl
    obtain ⟨present,rest,rfl,rfl⟩ := exists_values_of_forall_isSome hsome hfront
    simp only [List.length_map] at hlength
    have hids : ∀ i ∈ present, i < entries.length := by
      intro i hi
      exact hbound i (List.mem_filterMap.mpr ⟨some i,List.mem_map_of_mem hi,rfl⟩)
    have hdecode := decodeRequired_eq rest hids (hlength ▸ hranges)
    rw [List.drop_zero,hlength] at hdecode
    obtain ⟨out,hout,hsame⟩ := except_map_eq_ok.mp h
    cases hsame
    simp only [appendDictionarySelectedI64Page] at hout
    rw [hdecode] at hout
    rw [mapM_dictionaryValue hout,flatMap_slice_map]
  | other =>
    rw [hvalues] at h
    cases h

theorem readNullablePage_covers {present : List Bool} (hlength : rows.length = page.numValues)
    (hflags : rows.map Option.isSome = present) (hstores : page.values.Stores dictionary rows)
    (hranges : RangesOf p page.numValues 0 ranges)
    (h : readNullablePage page present dictionary ranges = .ok (some values)) :
    Covers values (ranges.flatMap fun r => slice rows r.1 r.2) := by
  have hpresent : present.length = page.numValues := by
    rw [← hflags,List.length_map,hlength]
  unfold readNullablePage at h
  cases hvalues : page.values with
  | plain stored =>
    rw [hvalues] at h hstores
    have hscattered : Scattered present stored rows := ⟨hflags,hstores⟩
    dsimp only at h
    rw [copySelectedI64NullablePage,if_neg (not_not.mpr hpresent),if_neg (not_lt.mpr hscattered.count_le)] at h
    cases h
    exact copyPresentRanges_covers (hlength ▸ hranges) hscattered
  | dictionary ids =>
    rw [hvalues] at h hstores
    obtain ⟨entries,rfl,rowIds,hfront,hbound,rfl⟩ := hstores
    rw [List.length_map] at hlength
    have hscattered : Scattered present ids rowIds := by
      refine ⟨?_,hfront⟩
      rw [← hflags,List.map_map]
      refine List.map_congr_left fun rowId hmem => ?_
      cases rowId with
      | none => rfl
      | some i =>
        have hi := hbound i (List.mem_filterMap.mpr ⟨some i,hmem,rfl⟩)
        simp [hi]
    have hdecode := decodeNullable_eq hscattered hbound (hlength ▸ hranges)
    rw [List.take_zero,List.count_nil,List.drop_zero] at hdecode
    obtain ⟨out,hout,hsame⟩ := except_map_eq_ok.mp h
    cases hsame
    simp only [appendDictionarySelectedI64Page] at hout
    rw [if_neg (not_not.mpr hpresent),hdecode] at hout
    refine covers_of_eq ?_
    rw [mapM_dictionaryValue hout,flatMap_slice_map]
  | other =>
    rw [hvalues] at h
    cases h

theorem readSelectedPage_covers {maxDefLevel : ℕ} (hpage : page.Holds maxDefLevel dictionary rows)
    (hranges : RangesOf p page.numValues 0 ranges)
    (h : readSelectedPage maxDefLevel page dictionary ranges = .ok (some values)) :
    Covers values (ranges.flatMap fun r => slice rows r.1 r.2) := by
  unfold readSelectedPage at h
  split_ifs at h with hzero
  · exact covers_of_eq (readRequiredPage_eq hpage.length (hpage.required hzero) hpage.values hranges h)
  · have hflags := hpage.flags hzero
    cases hlevels : page.levels with
    | v1 levels =>
      rw [hlevels] at h hflags
      cases levels with
      | rle levels => exact readNullablePage_covers hpage.length hflags hpage.values hranges h
      | bitPacked lengthFits => cases lengthFits <;> cases h
    | v2 numNulls levels =>
      rw [hlevels] at h hflags
      obtain ⟨hflags,hnulls⟩ := hflags
      dsimp only at h
      split_ifs at h with hcount
      · have hall : ∀ row ∈ rows, row.isSome := by
          intro row hrow
          rw [hcount,eq_comm,List.length_eq_zero_iff,List.filter_eq_nil_iff] at hnulls
          cases row with
          | none => exact absurd rfl (hnulls none hrow)
          | some value => rfl
        exact covers_of_eq (readRequiredPage_eq hpage.length hall hpage.values hranges h)
      · exact readNullablePage_covers hpage.length hflags hpage.values hranges h

end Page

/-- The loop after some rows: the runs left behind end with them, and the values read cover the
selected ones. -/
structure PageLoop.Inv (p : ℕ → Prop) [DecidablePred p] (runs : List (ℕ × ℕ)) (base : List ℤ)
    (seen : List (Option ℤ)) (s : PageLoop) : Prop where
  pageRowStart : s.pageRowStart = seen.length
  cursor : ∃ passed, runs = passed ++ s.cursor ∧ ∀ r ∈ passed, r.1 + r.2 ≤ seen.length
  output : ∃ values, s.output = base ++ values ∧ Covers values (selectAt p 0 seen)

section Pages
variable {p : ℕ → Prop} [DecidablePred p] {runs : List (ℕ × ℕ)} {base : List ℤ} {seen : List (Option ℤ)}
  {s : PageLoop} {maxDefLevel : ℕ}

theorem advanceRunCursor_passed (h : s.Inv p runs base seen) {stop : ℕ} (hstop : seen.length ≤ stop) :
    ∃ passed, runs = passed ++ advanceRunCursor s.cursor s.pageRowStart ∧ ∀ r ∈ passed, r.1 + r.2 ≤ stop := by
  obtain ⟨passed,hpassed,hend⟩ := h.cursor
  refine ⟨passed ++ s.cursor.takeWhile fun r => r.1 + r.2 ≤ s.pageRowStart,?_,fun r hr => ?_⟩
  · rw [List.append_assoc,advanceRunCursor,List.takeWhile_append_dropWhile,hpassed]
  · rcases List.mem_append.mp hr with hr | hr
    · exact (hend r hr).trans hstop
    · have hle : r.1 + r.2 ≤ s.pageRowStart :=
        of_decide_eq_true (List.mem_takeWhile_imp (p := fun r : ℕ × ℕ => decide (r.1 + r.2 ≤ s.pageRowStart)) hr)
      rw [h.pageRowStart] at hle
      omega

theorem not_selected_of_runsOverlapFrom (hruns : Marks p runs) (h : s.Inv p runs base seen) {stop i : ℕ}
    (hoverlap : ¬runsOverlapFrom (advanceRunCursor s.cursor s.pageRowStart) s.pageRowStart stop)
    (hi : seen.length ≤ i) (hlt : i < stop) : ¬p i := by
  intro hp
  obtain ⟨r,hr,hle,hend⟩ := (hruns.covers i).mp hp
  obtain ⟨passed,hpassed,hbefore⟩ := advanceRunCursor_passed h le_rfl
  rw [hpassed] at hr
  rcases List.mem_append.mp hr with hr | hr
  · have := hbefore r hr
    omega
  · cases hcursor : advanceRunCursor s.cursor s.pageRowStart with
    | nil =>
      rw [hcursor] at hr
      cases hr
    | cons head cursor =>
      have hhead : ¬head.1 + head.2 ≤ s.pageRowStart := by
        have := List.head?_dropWhile_not (fun r : ℕ × ℕ => decide (r.1 + r.2 ≤ s.pageRowStart)) s.cursor
        rw [show s.cursor.dropWhile (fun r : ℕ × ℕ => decide (r.1 + r.2 ≤ s.pageRowStart)) = head :: cursor from hcursor]
          at this
        simpa using this
      have hfirst : head.1 ≤ r.1 := by
        have hsorted := hruns.sorted
        rw [hpassed,hcursor] at hsorted
        rw [hcursor] at hr
        rcases List.mem_cons.mp hr with rfl | hr
        · exact le_rfl
        · exact (Nat.le_add_right _ _).trans ((List.pairwise_cons.mp (List.pairwise_append.mp hsorted).2.1).1 r hr)
      rw [hcursor] at hoverlap
      obtain ⟨runStart,runLen⟩ := head
      refine hoverlap ?_
      rw [runsOverlapFrom,Bool.and_eq_true,decide_eq_true_iff,decide_eq_true_iff]
      omega

theorem PageLoop.Inv.data {page : DataPage} {first : List (Option ℤ)} {s' : PageLoop} (hruns : Marks p runs)
    (h : s.Inv p runs base seen) (hpage : page.Holds maxDefLevel s.dictionary first)
    (hread : readPage maxDefLevel runs s (.data page) = .ok (some s')) :
    s'.Inv p runs base (seen ++ first) ∧ s'.dictionary = s.dictionary := by
  have hlength : (seen ++ first).length = s.pageRowStart + page.numValues := by
    rw [List.length_append,h.pageRowStart,hpage.length]
  have hselect : selectAt p 0 (seen ++ first) = selectAt p 0 seen ++ selectAt p s.pageRowStart first := by
    rw [selectAt_append,Nat.zero_add,h.pageRowStart]
  have hbehind : seen.length ≤ (seen ++ first).length := by
    rw [List.length_append]
    omega
  have hcursor := advanceRunCursor_passed h hbehind
  obtain ⟨values,houtput,hcovers⟩ := h.output
  simp only [readPage] at hread
  split_ifs at hread with hvalues hoverlap
  · cases hread
  · obtain ⟨result,hresult,hread⟩ := except_map_eq_ok.mp hread
    obtain ⟨more,rfl,hs'⟩ := Option.map_eq_some_iff.mp hread
    have hranges := hruns.rangesOf s.pageRowStart page.numValues
    have hmore := readSelectedPage_covers hpage hranges hresult
    have hpart := hranges.selectAt_eq hpage.length (Nat.zero_le _)
    rw [List.drop_zero,selectAt_add] at hpart
    rw [← hpart] at hmore
    subst hs'
    refine ⟨⟨hlength.symm,hcursor,values ++ more,?_,?_⟩,rfl⟩
    · rw [← List.append_assoc,← houtput]
    · rw [hselect]
      exact hcovers.append hmore
  · cases hread
    refine ⟨⟨hlength.symm,hcursor,values,houtput,?_⟩,rfl⟩
    have hnone : selectAt p s.pageRowStart first = [] := selectAt_none fun j hj hlt =>
      not_selected_of_runsOverlapFrom hruns h hoverlap (h.pageRowStart ▸ hj) (hpage.length ▸ hlt)
    rw [hselect,hnone,List.append_nil]
    exact hcovers

variable {pages : List Page} {output output' : List ℤ}

theorem readPages_inv {dictionary : Option (List ℤ)} {rows : List (Option ℤ)} {s' : PageLoop}
    (hruns : Marks p runs) (hchunk : ChunkHolds maxDefLevel dictionary pages rows) (h : s.Inv p runs base seen)
    (hdictionary : s.dictionary = dictionary) (hread : readPages maxDefLevel runs pages s = .ok (some s')) :
    s'.Inv p runs base (seen ++ rows) := by
  induction hchunk generalizing s seen with
  | nil =>
    cases hread
    rwa [List.append_nil]
  | @dictionary dictionary values plain pages rows hchunk ih =>
    obtain ⟨next,hnext,hrest⟩ := except_bind_eq_ok.mp hread
    rw [readPage] at hnext
    split_ifs at hnext with hdecline
    · cases hnext
      cases hrest
    · cases hnext
      exact ih (s := { s with dictionary := some values }) ⟨h.pageRowStart,h.cursor,h.output⟩ rfl hrest
  | @data dictionary page pages first rest hpage hchunk ih =>
    obtain ⟨next,hnext,hrest⟩ := except_bind_eq_ok.mp hread
    cases next with
    | none => cases hrest
    | some next =>
      obtain ⟨hinv,hsame⟩ := h.data hruns (hdictionary ▸ hpage) hnext
      rw [← List.append_assoc]
      exact ih hinv (hsame.trans hdictionary) hrest

theorem readPlainI64SelectedRuns_direct {column : ColumnDesc} {records : ℕ} (h : readPlainI64SelectedRuns column pages records runs output = .ok (some output')) :
    column.DirectI64 := by
  unfold readPlainI64SelectedRuns at h
  split_ifs at h with hflat
  · cases h
  · simpa [ColumnDesc.DirectI64,and_assoc] using hflat

theorem readPlainI64SelectedRuns_covers {column : ColumnDesc} {rows : List (Option ℤ)}
    {records : ℕ} (hruns : Marks p runs) (hchunk : ChunkHolds column.maxDefLevel none pages rows)
    (h : readPlainI64SelectedRuns column pages records runs output = .ok (some output')) :
    ∃ values, output' = output ++ values ∧ Covers values (selectAt p 0 rows) := by
  unfold readPlainI64SelectedRuns at h
  split_ifs at h with hflat
  · cases h
  · obtain ⟨read,hread,h⟩ := except_map_eq_ok.mp h
    obtain ⟨s,rfl,hout⟩ := Option.bind_eq_some_iff.mp h
    clear h
    split_ifs at hout
    cases hout
    have hstart : ({ cursor := runs, output := output } : PageLoop).Inv p runs output [] :=
      ⟨rfl,⟨[],rfl,fun r hr => absurd hr List.not_mem_nil⟩,[],(List.append_nil _).symm,covers_nil _⟩
    exact (readPages_inv hruns hchunk hstart rfl hread).output

end Pages

end Dodam.Storage
