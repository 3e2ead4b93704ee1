import Dodam.Storage.ColumnPages
import Dodam.Storage.EncodedBlocks

/-! # Handing the selected values to a consumer

The fused reader of 64-bit integers goes through the pages of a column chunk and hands the
values of the selected rows of a page to a consumer, with the offset of the first among all
selected rows.
-/
namespace Dodam.Storage
open Foundation Execution

/-- What the consumer is called with: the offset of the first value and the values. -/
abbrev SinkCall := ℕ × List ℤ

def selectedRunPrefixesFrom (selected : ℕ) : List (ℕ × ℕ) → List ℕ
  | [] => []
  | run :: runs => selected :: selectedRunPrefixesFrom (selected + run.2) runs

def selectedRunPrefixes (runs : List (ℕ × ℕ)) : List ℕ := selectedRunPrefixesFrom 0 runs

section Page
variable (buf : List UInt8) (valueStart pageRowStart pageRows : ℕ)

/-- The loop over the runs of a page without definition levels. -/
def requiredRunsToSink : List ((ℕ × ℕ) × ℕ) → Option ℕ → List ℤ → Option ℕ × List ℤ
  | [], offset, scratch => (offset,scratch)
  | ((runStart,runLen),selected) :: runs, offset, scratch =>
    if pageRowStart + pageRows ≤ runStart then (offset,scratch)
    else if runStart + runLen ≤ pageRowStart then requiredRunsToSink runs offset scratch
    else
      let localStart := max runStart pageRowStart - pageRowStart
      let localEnd := min (runStart + runLen) (pageRowStart + pageRows) - pageRowStart
      requiredRunsToSink runs (offset.or (some (selected + localStart + pageRowStart - runStart)))
        (scratch ++ plainInts 8 buf (valueStart + localStart * 8) (localEnd - localStart))

/-- The call with the values of a page, unless there are none. -/
def sinkCall : Option ℕ × List ℤ → Option SinkCall
  | (some offset,scratch) => if scratch = [] then none else some (offset,scratch)
  | (none,_) => none

def copySelectedI64RequiredPageToSink (runs : List (ℕ × ℕ)) (selectedPrefix : List ℕ) : Result (Option SinkCall) :=
  if buf.length < valueStart + pageRows * 8 then unsupportedSql "selected i64 page payload length mismatch"
  else .ok (sinkCall (requiredRunsToSink buf valueStart pageRowStart pageRows (runs.zip selectedPrefix) none []))

/-- Entry `i` of `build_present_prefix`. -/
def presentBefore (defLevels : List ℤ) (maxDefLevel : ℕ) (i : ℕ) : ℕ := (defLevels.take i).count (maxDefLevel : ℤ)

/-- The loop over the runs of a page with definition levels; it ends without a call at a run with a NULL. -/
def nullableRunsToSink (defLevels : List ℤ) (maxDefLevel : ℕ) :
    List ((ℕ × ℕ) × ℕ) → Option ℕ → List ℤ → Option (Option ℕ × List ℤ)
  | [], offset, scratch => some (offset,scratch)
  | ((runStart,runLen),selected) :: runs, offset, scratch =>
    if pageRowStart + pageRows ≤ runStart then some (offset,scratch)
    else if runStart + runLen ≤ pageRowStart then nullableRunsToSink defLevels maxDefLevel runs offset scratch
    else
      let localStart := max runStart pageRowStart - pageRowStart
      let localEnd := min (runStart + runLen) (pageRowStart + pageRows) - pageRowStart
      let before := presentBefore defLevels maxDefLevel localStart
      if presentBefore defLevels maxDefLevel localEnd - before ≠ localEnd - localStart then none
      else nullableRunsToSink defLevels maxDefLevel runs (offset.or (some (selected + localStart + pageRowStart - runStart)))
        (scratch ++ plainInts 8 buf (valueStart + before * 8) (localEnd - localStart))

def copySelectedI64NullablePageToSink (runs : List (ℕ × ℕ)) (selectedPrefix : List ℕ) (defLevels : List ℤ)
    (maxDefLevel : ℕ) : Result (Option SinkCall) :=
  if defLevels.length ≠ pageRows then .ok none
  else if buf.length < valueStart + presentBefore defLevels maxDefLevel pageRows * 8 then
    unsupportedSql "selected nullable i64 page payload length mismatch"
  else .ok ((nullableRunsToSink buf valueStart pageRowStart pageRows defLevels maxDefLevel (runs.zip selectedPrefix) none []).bind
    sinkCall)

end Page

/-- Where the values of a page start and its definition levels, if it is read with them; `none`
declines the page. -/
def pageLevels (maxDefLevel : ℕ) : ColumnPage → Result (Option (ℕ × Option (List ℤ)))
  | .dictionary .. => .ok none
  | .data buf numValues _ defLevelEncoding =>
    if 0 < maxDefLevel then
      (parseV1RleLevelData buf).bind fun (bytesRead,levelData) =>
        if defLevelEncoding ≠ .rle then .ok none
        else (decodeRleI16Values levelData (numRequiredBits maxDefLevel) numValues []).map fun levels =>
          some (bytesRead,some levels)
    else .ok (some (0,none))
  | .dataV2 buf numValues _ numNulls defLevelsByteLen repLevelsByteLen =>
    if buf.length < repLevelsByteLen + defLevelsByteLen then .ok none
    else if 0 < maxDefLevel ∧ numNulls ≠ 0 then
      (decodeRleI16Values ((buf.drop repLevelsByteLen).take defLevelsByteLen) (numRequiredBits maxDefLevel) numValues []).map
        fun levels => some (repLevelsByteLen + defLevelsByteLen,some levels)
    else .ok (some (repLevelsByteLen + defLevelsByteLen,none))

namespace ColumnPage

def isPlain : ColumnPage → Bool
  | dictionary .. => false
  | data _ _ encoding _ => encoding = .plain
  | dataV2 _ _ encoding .. => encoding = .plain

end ColumnPage

/-- The call for a page with selected rows, if it has one; `none` declines the page. -/
def copySelectedI64PageToSink (maxDefLevel : ℕ) (runs : List (ℕ × ℕ)) (pageRowStart : ℕ) (page : ColumnPage) :
    Result (Option (Option SinkCall)) :=
  (pageLevels maxDefLevel page).bind fun
    | none => .ok none
    | some (valueStart,none) =>
      (copySelectedI64RequiredPageToSink page.buf valueStart pageRowStart page.rows runs (selectedRunPrefixes runs)).map some
    | some (valueStart,some defLevels) =>
      (copySelectedI64NullablePageToSink page.buf valueStart pageRowStart page.rows runs (selectedRunPrefixes runs) defLevels
        maxDefLevel).map some

/-- The loop over the pages: the first row of the next page, the runs not yet behind it and the calls
of the consumer. -/
structure SinkLoop where
  pageRowStart : ℕ := 0
  cursor : List (ℕ × ℕ)
  calls : List SinkCall := []

def SinkLoop.consume (s : SinkLoop) (answer : List SinkCall → Result Unit) : Option SinkCall → Result SinkLoop
  | none => .ok s
  | some call => (answer (s.calls ++ [call])).map fun _ => { s with calls := s.calls ++ [call] }

def readPageToSink (maxDefLevel : ℕ) (runs : List (ℕ × ℕ)) (answer : List SinkCall → Result Unit) (s : SinkLoop)
    (page : ColumnPage) : Result (Option SinkLoop) :=
  if !page.isPlain then .ok none
  else
    let pageRowEnd := s.pageRowStart + page.rows
    let cursor := advanceRunCursor s.cursor s.pageRowStart
    if runsOverlapFrom cursor s.pageRowStart pageRowEnd then
      (copySelectedI64PageToSink maxDefLevel runs s.pageRowStart page).bind fun
        | none => .ok none
        | some call =>
          (SinkLoop.consume { s with cursor := cursor } answer call).map fun s => some { s with pageRowStart := pageRowEnd }
    else .ok (some { s with pageRowStart := pageRowEnd, cursor := cursor })

def readPagesToSink (maxDefLevel : ℕ) (runs : List (ℕ × ℕ)) (answer : List SinkCall → Result Unit) :
    List ColumnPage → SinkLoop → Result (Option SinkLoop)
  | [], s => .ok (some s)
  | page :: pages, s => (readPageToSink maxDefLevel runs answer s page).bind fun
    | none => .ok none
    | some s => readPagesToSink maxDefLevel runs answer pages s

/-- The calls of the consumer when the reader succeeds. -/
def readPlainI64SelectedRunsSink (column : ColumnDesc) (pages : List ColumnPage) (records : ℕ) (runs : List (ℕ × ℕ))
    (answer : List SinkCall → Result Unit) : Result (Option (List SinkCall)) :=
  if !column.physicalInt64 || column.maxRepLevel ≠ 0 || 1 < column.maxDefLevel then .ok none
  else
    (readPagesToSink column.maxDefLevel runs answer pages { cursor := runs }).map fun s =>
      s.bind fun s => if s.pageRowStart ≠ records then none else some s.calls

end Dodam.Storage

/-! ## When the consumer gets every selected row

A page holds a value for each row that is not NULL. The reader passes over a page
with a selected NULL, or with levels that end early, as if it had no selected
rows; it hands every selected row to the consumer when no such page is read.
-/
namespace Dodam.Storage
open Foundation Execution

/-- The calls hand over the values in order, each with the number of values before it. -/
inductive Handed : ℕ → List SinkCall → List ℤ → Prop
  | nil (n : ℕ) : Handed n [] []
  | cons {n : ℕ} {values rest : List ℤ} {calls : List SinkCall} (h : Handed (n + values.length) calls rest) :
    Handed n ((n,values) :: calls) (values ++ rest)

theorem Handed.append {n : ℕ} {calls calls' : List SinkCall} {values values' : List ℤ} (h : Handed n calls values)
    (h' : Handed (n + values.length) calls' values') : Handed n (calls ++ calls') (values ++ values') := by
  induction h with
  | nil => simpa using h'
  | @cons n values rest calls _ ih =>
    simp only [List.cons_append,List.append_assoc]
    apply Handed.cons
    apply ih
    simpa [Nat.add_assoc] using h'

inductive PageRows (maxDefLevel : ℕ) (page : ColumnPage) : List (Option ℤ) → Prop
  | required {valueStart : ℕ} (h : pageLevels maxDefLevel page = .ok (some (valueStart,none)))
    (hlen : valueStart + page.rows * 8 ≤ page.buf.length) :
    PageRows maxDefLevel page ((plainInts 8 page.buf valueStart page.rows).map some)
  | nullable {valueStart : ℕ} {levels : List ℤ} (h : pageLevels maxDefLevel page = .ok (some (valueStart,some levels)))
    (hlevels : levels.length = page.rows) (hlen : valueStart + levels.count (maxDefLevel : ℤ) * 8 ≤ page.buf.length) :
    PageRows maxDefLevel page
      (rowIds (levels.map (· == (maxDefLevel : ℤ))) (plainInts 8 page.buf valueStart (levels.count (maxDefLevel : ℤ))))

def HasSelected (p : ℕ → Prop) (start : ℕ) (page : ColumnPage) : Prop := ∃ i, start ≤ i ∧ i < start + page.rows ∧ p i

section Delivery
variable (p : ℕ → Prop) [DecidablePred p] (maxDefLevel : ℕ) (runs : List (ℕ × ℕ))

/-- The selected rows of the pages; pages without a selected row need not be decoded. -/
inductive SelectedRows : ℕ → List ColumnPage → List (Option ℤ) → Prop
  | nil (start : ℕ) : SelectedRows start [] []
  | skipped {start : ℕ} {page : ColumnPage} {pages : List ColumnPage} {out : List (Option ℤ)} (hnone : ¬HasSelected p start page)
    (h : SelectedRows (start + page.rows) pages out) : SelectedRows start (page :: pages) out
  | read {start : ℕ} {page : ColumnPage} {pages : List ColumnPage} {rows out : List (Option ℤ)}
    (hsome : HasSelected p start page) (hrows : PageRows maxDefLevel page rows)
    (h : SelectedRows (start + page.rows) pages out) : SelectedRows start (page :: pages) (selectAt p start rows ++ out)

/-- The consumer gets one value for each selected row, in order and with its rank. -/
def Delivered (pages : List ColumnPage) (calls : List SinkCall) : Prop :=
  ∃ values : List ℤ, SelectedRows p maxDefLevel 0 pages (values.map some) ∧ Handed 0 calls values

/-- The levels of the page can be decoded and its bytes suffice, unless the levels end early. -/
inductive Readable (page : ColumnPage) : Prop
  | required {valueStart : ℕ} (h : pageLevels maxDefLevel page = .ok (some (valueStart,none)))
    (hlen : valueStart + page.rows * 8 ≤ page.buf.length)
  | nullable {valueStart : ℕ} {levels : List ℤ} (h : pageLevels maxDefLevel page = .ok (some (valueStart,some levels)))
    (hlen : levels.length = page.rows → valueStart + levels.count (maxDefLevel : ℤ) * 8 ≤ page.buf.length)

/-- The reader takes the page: it is plain and, if a run reaches into it, readable. -/
def Taken (start : ℕ) (page : ColumnPage) : Prop :=
  page.isPlain ∧ (Overlaps runs start (start + page.rows) → Readable maxDefLevel page)

/-- Selected rows of the page can be decoded and are not NULL. -/
def Complete (start : ℕ) (page : ColumnPage) : Prop :=
  HasSelected p start page → ∃ rows, PageRows maxDefLevel page rows ∧ ∀ row ∈ selectAt p start rows, row.isSome

end Delivery

/-- A predicate on pages and their first rows. -/
def EachPage (P : ℕ → ColumnPage → Prop) : ℕ → List ColumnPage → Prop
  | _, [] => True
  | start, page :: pages => P start page ∧ EachPage P (start + page.rows) pages

section Offsets
variable (start count : ℕ)

/-- The rank of the first selected row of a window. -/
def firstSelectedOffset : ℕ → List (ℕ × ℕ) → Option ℕ
  | _, [] => none
  | selected, r :: runs =>
    if start + count ≤ r.1 then none
    else if r.1 + r.2 ≤ start then firstSelectedOffset (selected + r.2) runs
    else some (selected + (max r.1 start - start) + start - r.1)

variable {start count}

theorem localRanges_of_offset_none {selected : ℕ} {runs : List (ℕ × ℕ)} (h : firstSelectedOffset start count selected runs = none) :
    localRanges start count runs = [] := by
  induction runs generalizing selected with
  | nil => simp [localRanges]
  | cons r runs ih =>
    simp only [firstSelectedOffset] at h
    split_ifs at h with hafter hbefore
    · simp [localRanges,hafter]
    · rw [localRanges,if_neg hafter,if_pos hbefore]
      exact ih h

theorem firstSelectedOffset_eq {selected offset : ℕ} {runs : List (ℕ × ℕ)} (hsorted : runs.Pairwise fun r s => r.1 + r.2 ≤ s.1)
    (h : firstSelectedOffset start count selected runs = some offset) : offset = selected + rowsBefore start runs := by
  induction runs generalizing selected with
  | nil => simp [firstSelectedOffset] at h
  | cons r runs ih =>
    obtain ⟨hfirst,hsorted⟩ := List.pairwise_cons.mp hsorted
    simp only [firstSelectedOffset] at h
    split_ifs at h with hafter hbefore
    · have hle : r.1 ≤ start := (Nat.le_add_right ..).trans hbefore
      rw [rowsBefore_cons,min_eq_left hbefore,min_eq_left hle,Nat.add_sub_cancel_left,ih hsorted h,Nat.add_assoc]
    · have hinside := Nat.le_of_not_le hbefore
      have hbehind : rowsBefore start runs = 0 := rowsBefore_of_le fun s hs => hinside.trans (hfirst s hs)
      rw [rowsBefore_cons,hbehind,min_eq_right hinside,← Option.some.inj h]
      rcases le_total r.1 start with hle | hle
      · rw [max_eq_right hle,min_eq_left hle]
        omega
      · rw [max_eq_left hle,min_eq_right hle]
        omega

theorem sinkCall_handed (selected : ℕ) {runs : List (ℕ × ℕ)} {values : List ℤ}
    (hsorted : runs.Pairwise fun r s => r.1 + r.2 ≤ s.1) (hnone : localRanges start count runs = [] → values = []) :
    Handed (selected + rowsBefore start runs) (sinkCall (firstSelectedOffset start count selected runs,values)).toList values := by
  cases hoffset : firstSelectedOffset start count selected runs with
  | none =>
    rw [hnone (localRanges_of_offset_none hoffset)]
    exact .nil _
  | some offset =>
    rw [← firstSelectedOffset_eq hsorted hoffset]
    by_cases hvalues : values = []
    · simpa [sinkCall,hvalues] using Handed.nil offset
    · simpa [sinkCall,hvalues] using Handed.cons (Handed.nil (offset + values.length))

end Offsets

section Page
variable {p : ℕ → Prop} [DecidablePred p] {buf : List UInt8} {valueStart start count maxDefLevel : ℕ} {runs : List (ℕ × ℕ)}
  {levels : List ℤ}

theorem requiredRunsToSink_eq (selected : ℕ) (runs : List (ℕ × ℕ)) (offset : Option ℕ) (scratch : List ℤ) :
    requiredRunsToSink buf valueStart start count (runs.zip (selectedRunPrefixesFrom selected runs)) offset scratch =
      (offset.or (firstSelectedOffset start count selected runs),
        scratch ++ (localRanges start count runs).flatMap fun r => plainInts 8 buf (valueStart + r.1 * 8) (r.2 - r.1)) := by
  induction runs generalizing selected offset scratch with
  | nil => simp [requiredRunsToSink,firstSelectedOffset,localRanges,selectedRunPrefixesFrom]
  | cons r runs ih =>
    simp only [selectedRunPrefixesFrom,List.zip_cons_cons,requiredRunsToSink,firstSelectedOffset,localRanges]
    split_ifs with hafter hbefore
    · simp
    · exact ih ..
    · rw [ih]
      cases offset <;> simp

theorem nullableRunsToSink_eq (selected : ℕ) (runs : List (ℕ × ℕ)) (offset : Option ℕ) (scratch : List ℤ)
    (hpresent : ∀ r ∈ localRanges start count runs,
      presentBefore levels maxDefLevel r.2 - presentBefore levels maxDefLevel r.1 = r.2 - r.1) :
    nullableRunsToSink buf valueStart start count levels maxDefLevel (runs.zip (selectedRunPrefixesFrom selected runs)) offset
        scratch =
      some (offset.or (firstSelectedOffset start count selected runs),
        scratch ++ (localRanges start count runs).flatMap fun r =>
          plainInts 8 buf (valueStart + presentBefore levels maxDefLevel r.1 * 8) (r.2 - r.1)) := by
  induction runs generalizing selected offset scratch with
  | nil => simp [nullableRunsToSink,firstSelectedOffset,localRanges,selectedRunPrefixesFrom]
  | cons r runs ih =>
    simp only [selectedRunPrefixesFrom,List.zip_cons_cons,nullableRunsToSink,firstSelectedOffset,localRanges] at hpresent ⊢
    split_ifs at hpresent ⊢ with hafter hbefore hnull
    · simp
    · exact ih _ _ _ hpresent
    · exact absurd (hpresent _ (List.mem_cons_self ..)) hnull
    · rw [ih _ _ _ fun r hr => hpresent r (List.mem_cons_of_mem _ hr)]
      cases offset <;> simp

theorem presentBefore_eq (levels : List ℤ) (maxDefLevel i : ℕ) :
    presentBefore levels maxDefLevel i = ((levels.map (· == (maxDefLevel : ℤ))).take i).count true := by
  rw [presentBefore,← List.map_take,List.count_eq_countP,List.count_eq_countP,List.countP_map]
  congr 1
  funext level
  simp

theorem present_of_rowIds {present : List Bool} {stored : List ℤ} (h : ∀ row ∈ rowIds present stored, row.isSome) :
    present = List.replicate present.length true := by
  induction present generalizing stored with
  | nil => simp
  | cons flag present ih =>
    cases flag with
    | false => simp [rowIds] at h
    | true =>
      rw [List.length_cons,List.replicate_succ,← ih fun row hrow => h row (List.mem_cons_of_mem _ hrow)]

theorem rowIds_all (n : ℕ) {stored : List ℤ} (hn : n ≤ stored.length) :
    rowIds (List.replicate n true) stored = (stored.take n).map some := by
  rw [← rowIds_take_count,List.count_replicate_self]
  have hlen : (stored.take n).length = n := by simpa using hn
  have hreplicate := rowIds_replicate (stored.take n)
  rwa [hlen] at hreplicate

theorem slice_rowIds_of_present {present : List Bool} {stored : List ℤ} {a b : ℕ} (hab : a ≤ b) (hb : b ≤ present.length)
    (hstored : stored.length = present.count true) (hall : ∀ row ∈ slice (rowIds present stored) a b, row.isSome) :
    (present.take b).count true - (present.take a).count true = b - a ∧
      slice (rowIds present stored) a b = ((stored.drop ((present.take a).count true)).take (b - a)).map some := by
  rw [rowIds_slice] at hall ⊢
  have hlen : (slice present a b).length = b - a := length_slice hb
  have hflags := present_of_rowIds hall
  rw [hlen] at hflags
  have hcount : (present.take b).count true = (present.take a).count true + (b - a) := by
    rw [take_eq_take_append_slice hab,List.count_append,hflags,List.count_replicate_self]
  refine ⟨by omega,?_⟩
  rw [hflags,rowIds_all]
  have hle : (present.take b).count true ≤ present.count true := (List.take_sublist b present).count_le true
  simp only [List.length_drop]
  omega

/-- A page whose selected rows are not NULL is handed over as a whole. -/
theorem copyPage_handed {page : ColumnPage} {rows : List (Option ℤ)} (hruns : Marks p runs) (hrows : PageRows maxDefLevel page rows)
    (hall : ∀ row ∈ selectAt p start rows, row.isSome) :
    ∃ call values, copySelectedI64PageToSink maxDefLevel runs start page = .ok (some call) ∧
      selectAt p start rows = values.map some ∧ Handed (rowsBefore start runs) call.toList values := by
  have hbounds := fun r (hr : r ∈ localRanges start page.rows runs) => (hruns.rangesOf start page.rows).bounds hr
  have hcall {values : List ℤ} (hnone : localRanges start page.rows runs = [] → values = []) :
      Handed (rowsBefore start runs) (sinkCall (firstSelectedOffset start page.rows 0 runs,values)).toList values := by
    simpa only [Nat.zero_add] using sinkCall_handed 0 hruns.sorted hnone
  rw [hruns.selectAt_eq] at hall ⊢
  cases hrows with
  | @required valueStart hlevels hlen =>
    have hcopy : copySelectedI64PageToSink maxDefLevel runs start page = .ok (some (sinkCall
        (firstSelectedOffset start page.rows 0 runs,
          (localRanges start page.rows runs).flatMap fun r => plainInts 8 page.buf (valueStart + r.1 * 8) (r.2 - r.1)))) := by
      simp only [copySelectedI64PageToSink,hlevels,Except.bind,copySelectedI64RequiredPageToSink,if_neg (Nat.not_lt.mpr hlen),
        selectedRunPrefixes,requiredRunsToSink_eq,Option.none_or,List.nil_append,Except.map]
    refine ⟨_,_,hcopy,?_,hcall fun hnone => by simp [hnone]⟩
    simp only [List.length_map,length_plainInts,List.map_flatMap]
    apply List.flatMap_congr
    intro r hr
    obtain ⟨hle,hhi⟩ := hbounds r hr
    rw [slice_map,slice,slice_plainInts _ _ _ (by omega)]
  | @nullable valueStart levels hlevels hcomplete hlen =>
    have hpresentLen : (levels.map (· == (maxDefLevel : ℤ))).length = page.rows := by simpa using hcomplete
    have hcount : (levels.map (· == (maxDefLevel : ℤ))).count true = levels.count (maxDefLevel : ℤ) := by
      rw [← Encoded.count_presentFlags,Encoded.presentFlags]
    simp only [length_rowIds,hpresentLen] at hall ⊢
    have hslices : ∀ r ∈ localRanges start page.rows runs,
        presentBefore levels maxDefLevel r.2 - presentBefore levels maxDefLevel r.1 = r.2 - r.1 ∧
          slice (rowIds (levels.map (· == (maxDefLevel : ℤ)))
              (plainInts 8 page.buf valueStart (levels.count (maxDefLevel : ℤ)))) r.1 r.2 =
            (plainInts 8 page.buf (valueStart + presentBefore levels maxDefLevel r.1 * 8) (r.2 - r.1)).map some := by
      intro r hr
      obtain ⟨hle,hhi⟩ := hbounds r hr
      have hrange := slice_rowIds_of_present hle (hhi.trans_eq hpresentLen.symm)
        (by rw [length_plainInts,hcount]) fun row hrow => hall row (List.mem_flatMap.mpr ⟨r,hr,hrow⟩)
      rw [← presentBefore_eq,← presentBefore_eq] at hrange
      refine ⟨hrange.1,?_⟩
      rw [hrange.2,slice_plainInts]
      have hbefore : ∀ i, presentBefore levels maxDefLevel i ≤ levels.count (maxDefLevel : ℤ) :=
        fun i => (List.take_sublist i levels).count_le _
      have hfirst := hbefore r.1
      have hlast := hbefore r.2
      omega
    have hshort : ¬levels.length ≠ page.rows := by simpa using hcomplete
    have hfits : ¬page.buf.length < valueStart + presentBefore levels maxDefLevel page.rows * 8 := by
      rw [presentBefore,← hcomplete,List.take_length]
      omega
    have hcopy : copySelectedI64PageToSink maxDefLevel runs start page = .ok (some (sinkCall
        (firstSelectedOffset start page.rows 0 runs,
          (localRanges start page.rows runs).flatMap fun r =>
            plainInts 8 page.buf (valueStart + presentBefore levels maxDefLevel r.1 * 8) (r.2 - r.1)))) := by
      simp only [copySelectedI64PageToSink,hlevels,Except.bind,copySelectedI64NullablePageToSink,if_neg hshort,if_neg hfits,
        selectedRunPrefixes,nullableRunsToSink_eq _ _ _ _ fun r hr => (hslices r hr).1,Option.none_or,List.nil_append,
        Option.bind_some,Except.map]
    refine ⟨_,_,hcopy,?_,hcall fun hnone => by simp [hnone]⟩
    rw [List.map_flatMap]
    exact List.flatMap_congr fun r hr => (hslices r hr).2

end Page

section Pages
variable {p : ℕ → Prop} [DecidablePred p] {maxDefLevel start : ℕ} {runs : List (ℕ × ℕ)} {answer : List SinkCall → Result Unit}
  {page : ColumnPage} {pages : List ColumnPage} {s s' : SinkLoop} {calls : List SinkCall}

theorem copyPage_isSome_iff :
    (∃ call, copySelectedI64PageToSink maxDefLevel runs start page = .ok (some call)) ↔ Readable maxDefLevel page := by
  constructor
  · rintro ⟨call,hcopy⟩
    rw [copySelectedI64PageToSink] at hcopy
    obtain ⟨levels,hlevels,hcopy⟩ := except_bind_eq_ok.mp hcopy
    match levels with
    | none => cases hcopy
    | some (valueStart,none) =>
      obtain ⟨_,hrequired,_⟩ := except_map_eq_ok.mp hcopy
      rw [copySelectedI64RequiredPageToSink] at hrequired
      split_ifs at hrequired with hshort
      · cases hrequired
      · exact .required hlevels (Nat.not_lt.mp hshort)
    | some (valueStart,some levels) =>
      obtain ⟨_,hnullable,_⟩ := except_map_eq_ok.mp hcopy
      refine .nullable hlevels fun hlength => ?_
      rw [copySelectedI64NullablePageToSink,if_neg (not_not.mpr hlength)] at hnullable
      split_ifs at hnullable with hshort
      · cases hnullable
      · rw [presentBefore,← hlength,List.take_length] at hshort
        exact Nat.not_lt.mp hshort
  · intro hreadable
    cases hreadable with
    | @required valueStart h hlen =>
      simp only [copySelectedI64PageToSink,h,Except.bind,copySelectedI64RequiredPageToSink,if_neg (Nat.not_lt.mpr hlen)]
      exact ⟨_,rfl⟩
    | @nullable valueStart levels h hlen =>
      simp only [copySelectedI64PageToSink,h,Except.bind,copySelectedI64NullablePageToSink]
      by_cases hlength : levels.length = page.rows
      · have hfits : ¬page.buf.length < valueStart + presentBefore levels maxDefLevel page.rows * 8 := by
          rw [presentBefore,← hlength,List.take_length]
          exact Nat.not_lt.mpr (hlen hlength)
        rw [if_neg (not_not.mpr hlength),if_neg hfits]
        exact ⟨_,rfl⟩
      · rw [if_pos hlength]
        exact ⟨_,rfl⟩

theorem readPage_eq_ok (hread : readPageToSink maxDefLevel runs answer s page = .ok (some s')) :
    page.isPlain ∧ s'.pageRowStart = s.pageRowStart + page.rows ∧ s'.cursor = advanceRunCursor s.cursor s.pageRowStart ∧
      if runsOverlapFrom (advanceRunCursor s.cursor s.pageRowStart) s.pageRowStart (s.pageRowStart + page.rows) then
        ∃ call, copySelectedI64PageToSink maxDefLevel runs s.pageRowStart page = .ok (some call) ∧ s'.calls = s.calls ++ call.toList
      else s'.calls = s.calls := by
  rw [readPageToSink] at hread
  dsimp only at hread
  split_ifs at hread with hplain hoverlap
  · cases hread
  · obtain ⟨call,hcopy,hread⟩ := except_bind_eq_ok.mp hread
    cases call with
    | none => cases hread
    | some call =>
      obtain ⟨after,hconsume,hafter⟩ := except_map_eq_ok.mp hread
      cases hafter
      have hsame : after.cursor = advanceRunCursor s.cursor s.pageRowStart ∧ after.calls = s.calls ++ call.toList := by
        cases call with
        | none =>
          cases hconsume
          simp
        | some call =>
          obtain ⟨_,_,hcalls⟩ := except_map_eq_ok.mp hconsume
          cases hcalls
          simp
      refine ⟨by simpa using hplain,by simp,hsame.1,?_⟩
      rw [if_pos hoverlap]
      exact ⟨call,hcopy,hsame.2⟩
  · cases hread
    refine ⟨by simpa using hplain,by simp,by simp,?_⟩
    rw [if_neg hoverlap]

theorem readPage_step (h : CursorPassed runs s.cursor s.pageRowStart)
    (hread : readPageToSink maxDefLevel runs answer s page = .ok (some s')) :
    s'.pageRowStart = s.pageRowStart + page.rows ∧ CursorPassed runs s'.cursor s'.pageRowStart := by
  obtain ⟨_,hstart,hcursor,_⟩ := readPage_eq_ok hread
  refine ⟨hstart,?_⟩
  rw [hstart,hcursor]
  exact h.advance (Nat.le_add_right _ _)

theorem taken_of_readPage (hsorted : runs.Pairwise fun r s => r.1 + r.2 ≤ s.1) (h : CursorPassed runs s.cursor s.pageRowStart)
    (hread : readPageToSink maxDefLevel runs answer s page = .ok (some s')) : Taken maxDefLevel runs s.pageRowStart page := by
  obtain ⟨hplain,_,_,hcalls⟩ := readPage_eq_ok hread
  refine ⟨hplain,fun hoverlaps => ?_⟩
  rw [if_pos ((h.overlap_iff hsorted).mpr hoverlaps)] at hcalls
  obtain ⟨call,hcopy,_⟩ := hcalls
  exact copyPage_isSome_iff.mp ⟨call,hcopy⟩

theorem readPage_of_taken (hsorted : runs.Pairwise fun r s => r.1 + r.2 ≤ s.1) (h : CursorPassed runs s.cursor s.pageRowStart)
    (htaken : Taken maxDefLevel runs s.pageRowStart page) :
    ∃ s', readPageToSink maxDefLevel runs (fun _ => .ok ()) s page = .ok (some s') := by
  obtain ⟨hplain,hreadable⟩ := htaken
  simp only [readPageToSink,hplain,Bool.not_true,Bool.false_eq_true,if_false]
  split_ifs with hoverlap
  · obtain ⟨call,hcopy⟩ := copyPage_isSome_iff.mpr (hreadable ((h.overlap_iff hsorted).mp hoverlap))
    rw [hcopy]
    cases call <;> exact ⟨_,rfl⟩
  · exact ⟨_,rfl⟩

theorem length_of_pageRows {rows : List (Option ℤ)} (h : PageRows maxDefLevel page rows) : rows.length = page.rows := by
  cases h with
  | required => simp
  | nullable _ hlevels _ => simpa [length_rowIds] using hlevels

theorem copyPage_empty {call : Option SinkCall} (hruns : Marks p runs) (hempty : page.rows = 0)
    (hcopy : copySelectedI64PageToSink maxDefLevel runs start page = .ok (some call)) :
    Handed (rowsBefore start runs) call.toList [] := by
  have hrows {rows : List (Option ℤ)} (hrows : PageRows maxDefLevel page rows) : Handed (rowsBefore start runs) call.toList [] := by
    have hnil : rows = [] := List.eq_nil_of_length_eq_zero ((length_of_pageRows hrows).trans hempty)
    subst hnil
    have hall : ∀ row ∈ selectAt p start ([] : List (Option ℤ)), row.isSome := by simp
    obtain ⟨call',values,hcopy',hvalues,hhanded⟩ := copyPage_handed hruns hrows hall
    rw [hcopy] at hcopy'
    cases hcopy'
    have hvalues : values = [] := by simpa using hvalues.symm
    exact hvalues ▸ hhanded
  cases copyPage_isSome_iff.mp ⟨call,hcopy⟩ with
  | required h hlen => exact hrows (.required h hlen)
  | @nullable valueStart levels h hlen =>
    by_cases hlength : levels.length = page.rows
    · exact hrows (.nullable h hlength (hlen hlength))
    · simp only [copySelectedI64PageToSink,h,Except.bind,copySelectedI64NullablePageToSink,if_pos hlength] at hcopy
      cases hcopy
      exact .nil _

theorem readPage_handed (hruns : Marks p runs) (h : CursorPassed runs s.cursor s.pageRowStart)
    (hcomplete : Complete p maxDefLevel s.pageRowStart page)
    (hread : readPageToSink maxDefLevel runs answer s page = .ok (some s')) :
    ∃ calls values, s'.calls = s.calls ++ calls ∧ Handed (rowsBefore s.pageRowStart runs) calls values ∧
      rowsBefore s'.pageRowStart runs = rowsBefore s.pageRowStart runs + values.length ∧
      ∀ {pages : List ColumnPage} {out : List (Option ℤ)}, SelectedRows p maxDefLevel (s.pageRowStart + page.rows) pages out →
        SelectedRows p maxDefLevel s.pageRowStart (page :: pages) (values.map some ++ out) := by
  obtain ⟨_,hstart,_,hcalls⟩ := readPage_eq_ok hread
  rw [hstart]
  by_cases hsome : HasSelected p s.pageRowStart page
  · obtain ⟨rows,hrows,hall⟩ := hcomplete hsome
    have hoverlaps : Overlaps runs s.pageRowStart (s.pageRowStart + page.rows) := by
      by_contra hnone
      obtain ⟨i,hle,hlt,hp⟩ := hsome
      exact not_selected_of_not_overlaps hruns hnone hle hlt hp
    rw [if_pos ((h.overlap_iff hruns.sorted).mpr hoverlaps)] at hcalls
    obtain ⟨call,hcopy,hcalls⟩ := hcalls
    obtain ⟨call',values,hcopy',hvalues,hhanded⟩ := copyPage_handed hruns hrows hall
    rw [hcopy] at hcopy'
    cases hcopy'
    refine ⟨_,values,hcalls,hhanded,?_,fun hout => ?_⟩
    · rw [← length_of_pageRows hrows,rowsBefore_add_length hruns,hvalues,List.length_map]
    · rw [← hvalues]
      exact .read hsome hrows hout
  · have hvalues : rowsBefore (s.pageRowStart + page.rows) runs = rowsBefore s.pageRowStart runs := by
      have hlength := rowsBefore_add_length hruns s.pageRowStart (List.replicate page.rows ())
      have hnone : selectAt p s.pageRowStart (List.replicate page.rows ()) = [] := by
        apply selectAt_none
        intro i hle hlt hp
        exact hsome ⟨i,hle,by simpa using hlt,hp⟩
      simpa [hnone] using hlength
    split_ifs at hcalls with hoverlap
    · obtain ⟨call,hcopy,hcalls⟩ := hcalls
      have hempty : page.rows = 0 := by
        by_contra hne
        exact hsome (exists_selected_of_overlaps hruns ((h.overlap_iff hruns.sorted).mp hoverlap) (by omega))
      exact ⟨_,[],hcalls,copyPage_empty hruns hempty hcopy,by simpa using hvalues,fun hout => .skipped hsome hout⟩
    · exact ⟨[],[],by simpa using hcalls,.nil _,by simpa using hvalues,fun hout => .skipped hsome hout⟩

theorem readPages_taken (hsorted : runs.Pairwise fun r s => r.1 + r.2 ≤ s.1) (h : CursorPassed runs s.cursor s.pageRowStart)
    (hread : readPagesToSink maxDefLevel runs answer pages s = .ok (some s')) :
    EachPage (Taken maxDefLevel runs) s.pageRowStart pages ∧ s'.pageRowStart = rowsAfter s.pageRowStart pages := by
  induction pages generalizing s with
  | nil =>
    cases hread
    simp [EachPage]
  | cons page pages ih =>
    obtain ⟨next,hnext,hrest⟩ := except_bind_eq_ok.mp hread
    cases next with
    | none => cases hrest
    | some next =>
      obtain ⟨hstart,hcursor⟩ := readPage_step h hnext
      obtain ⟨htaken,hend⟩ := ih hcursor hrest
      rw [hstart] at htaken hend
      exact ⟨⟨taken_of_readPage hsorted h hnext,htaken⟩,by simpa using hend⟩

theorem readPages_of_taken (hsorted : runs.Pairwise fun r s => r.1 + r.2 ≤ s.1) (h : CursorPassed runs s.cursor s.pageRowStart)
    (htaken : EachPage (Taken maxDefLevel runs) s.pageRowStart pages) :
    ∃ s', readPagesToSink maxDefLevel runs (fun _ => .ok ()) pages s = .ok (some s') := by
  induction pages generalizing s with
  | nil => exact ⟨s,by simp [readPagesToSink]⟩
  | cons page pages ih =>
    obtain ⟨hpage,htaken⟩ := htaken
    obtain ⟨next,hnext⟩ := readPage_of_taken hsorted h hpage
    obtain ⟨hstart,hcursor⟩ := readPage_step h hnext
    rw [← hstart] at htaken
    obtain ⟨s',hs'⟩ := ih hcursor htaken
    exact ⟨s',by simp only [readPagesToSink,hnext,Except.bind,hs']⟩

theorem readPages_handed (hruns : Marks p runs) (h : CursorPassed runs s.cursor s.pageRowStart)
    (hcomplete : EachPage (Complete p maxDefLevel) s.pageRowStart pages)
    (hread : readPagesToSink maxDefLevel runs answer pages s = .ok (some s')) :
    ∃ (calls : List SinkCall) (values : List ℤ), s'.calls = s.calls ++ calls ∧
      Handed (rowsBefore s.pageRowStart runs) calls values ∧ SelectedRows p maxDefLevel s.pageRowStart pages (values.map some) := by
  induction pages generalizing s with
  | nil =>
    cases hread
    exact ⟨[],[],by simp,.nil _,.nil _⟩
  | cons page pages ih =>
    obtain ⟨hpage,hcomplete⟩ := hcomplete
    obtain ⟨next,hnext,hrest⟩ := except_bind_eq_ok.mp hread
    cases next with
    | none => cases hrest
    | some next =>
      obtain ⟨hstart,hcursor⟩ := readPage_step h hnext
      rw [← hstart] at hcomplete
      obtain ⟨calls,values,hcalls,hhanded,hrows,hselected⟩ := readPage_handed hruns h hpage hnext
      obtain ⟨calls',values',hcalls',hhanded',hselected'⟩ := ih hcursor hcomplete hrest
      rw [hrows] at hhanded'
      rw [hstart] at hselected'
      refine ⟨calls ++ calls',values ++ values',by rw [hcalls',hcalls,List.append_assoc],hhanded.append hhanded',?_⟩
      simpa using hselected hselected'

theorem complete_of_selectedRows {values : List ℤ} (h : SelectedRows p maxDefLevel start pages (values.map some)) :
    EachPage (Complete p maxDefLevel) start pages := by
  generalize hout : values.map some = out at h
  induction h generalizing values with
  | nil => simp [EachPage]
  | skipped hnone h ih => exact ⟨fun hsome => absurd hsome hnone,ih hout⟩
  | @read start page pages rows out hsome hrows h ih =>
    obtain ⟨first,rest,rfl,hfirst,hrest⟩ := List.map_eq_append_iff.mp hout
    refine ⟨fun _ => ⟨rows,hrows,fun row hrow => ?_⟩,ih hrest⟩
    rw [← hfirst] at hrow
    obtain ⟨value,_,rfl⟩ := List.mem_map.mp hrow
    simp

end Pages

/-- Whatever the consumer answers, success means that every selected row was handed over with its rank,
exactly if no page that the reader takes has a selected NULL or levels that end before its rows. -/
theorem readPlainI64SelectedRunsSink_delivers_iff {p : ℕ → Prop} [DecidablePred p] {runs : List (ℕ × ℕ)} (hruns : Marks p runs)
    (column : ColumnDesc) (pages : List ColumnPage) (records : ℕ) :
    (∀ answer calls, readPlainI64SelectedRunsSink column pages records runs answer = .ok (some calls) →
        Delivered p column.maxDefLevel pages calls) ↔
      (column.physicalInt64 = true ∧ column.maxRepLevel = 0 ∧ column.maxDefLevel ≤ 1 ∧ rowsAfter 0 pages = records ∧
          EachPage (Taken column.maxDefLevel runs) 0 pages →
        EachPage (Complete p column.maxDefLevel) 0 pages) := by
  have hstart : CursorPassed runs ({ cursor := runs } : SinkLoop).cursor 0 := cursorPassed_start runs 0
  have hflat : (!column.physicalInt64 || column.maxRepLevel ≠ 0 || 1 < column.maxDefLevel) = true ↔
      ¬(column.physicalInt64 = true ∧ column.maxRepLevel = 0 ∧ column.maxDefLevel ≤ 1) := by
    cases column.physicalInt64 <;> simp [imp_iff_or_not,or_comm]
  constructor
  · rintro hdelivers ⟨hint,hrep,hdef,hrecords,htaken⟩
    obtain ⟨s',hs'⟩ := readPages_of_taken hruns.sorted hstart htaken
    have hend := (readPages_taken hruns.sorted hstart hs').2
    have hread : readPlainI64SelectedRunsSink column pages records runs (fun _ => .ok ()) = .ok (some s'.calls) := by
      rw [readPlainI64SelectedRunsSink,if_neg (hflat.not.mpr (not_not.mpr ⟨hint,hrep,hdef⟩)),hs']
      simp [Except.map,hend,hrecords]
    obtain ⟨values,hselected,_⟩ := hdelivers _ _ hread
    exact complete_of_selectedRows hselected
  · intro hcond answer calls hread
    rw [readPlainI64SelectedRunsSink] at hread
    split_ifs at hread with hlayout
    · cases hread
    have hlayout := not_not.mp (hflat.not.mp hlayout)
    obtain ⟨result,hpages,hresult⟩ := except_map_eq_ok.mp hread
    obtain ⟨s',rfl,hrecords⟩ := Option.bind_eq_some_iff.mp hresult
    obtain ⟨htaken,hend⟩ := readPages_taken hruns.sorted hstart hpages
    split_ifs at hrecords with hlength
    cases hrecords
    have hcomplete := hcond ⟨hlayout.1,hlayout.2.1,hlayout.2.2,hend.symm.trans (not_not.mp hlength),htaken⟩
    obtain ⟨calls,values,hcalls,hhanded,hselected⟩ := readPages_handed hruns hstart hcomplete hpages
    refine ⟨values,hselected,?_⟩
    rw [rowsBefore_of_le fun r _ => Nat.zero_le r.1] at hhanded
    simpa [hcalls] using hhanded

def nullableColumn : ColumnDesc where
  path := ["c"]
  physicalInt64 := true
  maxRepLevel := 0
  maxDefLevel := 1
  decimal128 := none

def sevenAndNull : ColumnPage := .dataV2 [3,1,7,0,0,0,0,0,0,0] 2 .plain 1 2 0

theorem marks_firstTwo : Marks (fun i => i < 2) [(0,2)] := by
  refine ⟨by simp,by simp,fun i => ?_⟩
  simp

theorem readPlainI64SelectedRunsSink_delivers_two :
    (∀ answer calls, readPlainI64SelectedRunsSink nullableColumn [sevenAndNull] 2 [(0,2)] answer = .ok (some calls) →
        Delivered (fun i => i < 2) 1 [sevenAndNull] calls) ↔
      (nullableColumn.physicalInt64 = true ∧ nullableColumn.maxRepLevel = 0 ∧ nullableColumn.maxDefLevel ≤ 1 ∧
          rowsAfter 0 [sevenAndNull] = 2 ∧ EachPage (Taken 1 [(0,2)]) 0 [sevenAndNull] →
        EachPage (Complete (fun i => i < 2) 1) 0 [sevenAndNull]) :=
  readPlainI64SelectedRunsSink_delivers_iff marks_firstTwo nullableColumn [sevenAndNull] 2

theorem pageLevels_sevenAndNull : pageLevels 1 sevenAndNull = .ok (some (2,some [1,0])) := by decide +kernel

/-- The page with a NULL is passed over, and the reader succeeds without a value. -/
theorem readPlainI64SelectedRunsSink_loses_page :
    readPlainI64SelectedRunsSink nullableColumn [sevenAndNull] 2 [(0,2)] (fun _ => .ok ()) = .ok (some []) ∧
      ¬Delivered (fun i => i < 2) 1 [sevenAndNull] [] := by
  refine ⟨by decide,?_⟩
  rintro ⟨values,hselected,_⟩
  obtain ⟨hcomplete,_⟩ := complete_of_selectedRows hselected
  obtain ⟨rows,hrows,hall⟩ := hcomplete ⟨0,by decide⟩
  cases hrows with
  | required h => simp [pageLevels_sevenAndNull] at h
  | nullable h =>
    rw [pageLevels_sevenAndNull] at h
    cases h
    have hnull := hall none (by decide)
    simp at hnull

end Dodam.Storage
