import Dodam.Storage.ColumnPages
import Dodam.Storage.EncodedBlocks

/-! # Reading the selected values of a primitive column

The reader decodes the selected rows of the pages of a column chunk, from plain or dictionary
pages without NULLs.
-/
namespace Dodam.Storage
open Foundation Execution

inductive PhysicalType
  | int32
  | int64
  | other
deriving DecidableEq

inductive DirectPrimitiveColumnType
  | i64
  | i32
  | date32
  | decimal128Int64Raw (precision : ℕ) (scale : ℤ)

def DirectPrimitiveColumnType.width : DirectPrimitiveColumnType → ℕ
  | i64 => 8
  | i32 => 4
  | date32 => 4
  | decimal128Int64Raw .. => 8

def directPrimitivePageColumnTypeMatches : PhysicalType → DirectPrimitiveColumnType → Bool
  | .int32, .i32 => true
  | .int32, .date32 => true
  | .int64, .i64 => true
  | .int64, .decimal128Int64Raw .. => true
  | _, _ => false

structure PrimitiveColumnDesc where
  physicalType : PhysicalType
  maxRepLevel : ℕ
  maxDefLevel : ℕ

structure DirectPrimitiveDictionary where
  data : List UInt8
  values : ℕ

namespace DirectPrimitiveDictionary

def fromPlain (width : ℕ) (data : List UInt8) (values : ℕ) : Option DirectPrimitiveDictionary :=
  if data.length < values * width then none else some ⟨data.take (values * width),values⟩

def value (width : ℕ) (dictionary : DirectPrimitiveDictionary) (id : ℤ) : Result ℤ :=
  if id < 0 then invalidDictionaryIdError
  else if dictionary.values ≤ id.toNat then invalidDictionaryIdError
  else .ok (plainInt width dictionary.data (id.toNat * width))

def appendSelectedValues (width : ℕ) (dictionary : DirectPrimitiveDictionary) (selectedIds output : List ℤ) : Result (List ℤ) :=
  (selectedIds.mapM (dictionary.value width)).map fun values => output ++ values

end DirectPrimitiveDictionary

/-- The text of an error names the type of the column. -/
def payloadMismatch (width : ℕ) : Result (List ℤ) :=
  if width = 4 then unsupportedSql "selected i32 page payload length mismatch"
  else unsupportedSql "selected i64 page payload length mismatch"

def runsOverlap (runs : List (ℕ × ℕ)) (start stop : ℕ) : Bool := runs.any fun r => r.1 < stop && start < r.1 + r.2

/-- `compact_plain_i32_page_selected_ranges` and `compact_plain_i64_page_selected_ranges` -/
def compactPlainPageSelectedRanges (width : ℕ) (buf : List UInt8) (valueStart pageRowStart pageRows : ℕ) (runs : List (ℕ × ℕ))
    (output : List ℤ) : Result (List ℤ) :=
  if !runsOverlap runs pageRowStart (pageRowStart + pageRows) then .ok output
  else if buf.length < valueStart + pageRows * width then payloadMismatch width
  else .ok (output ++ (localRanges pageRowStart pageRows runs).flatMap fun r =>
    plainInts width buf (valueStart + r.1 * width) (r.2 - r.1))

def selectedPageRunStats (pageRowStart pageRows : ℕ) : List (ℕ × ℕ) → ℕ → ℕ → ℕ × ℕ
  | [], rows, runs => (rows,runs)
  | (runStart,runLen) :: selectedRuns, rows, runs =>
    if pageRowStart + pageRows ≤ runStart then (rows,runs)
    else
      let start := max runStart pageRowStart
      let stop := min (runStart + runLen) (pageRowStart + pageRows)
      if start < stop then selectedPageRunStats pageRowStart pageRows selectedRuns (rows + (stop - start)) (runs + 1)
      else selectedPageRunStats pageRowStart pageRows selectedRuns rows runs

def shouldUseBlockedSelectedDictionaryDecode (pageRows selectedRows selectedRuns : ℕ) : Bool :=
  pageRows ≤ selectedRows + selectedRuns * 8

/-- The ids of the selected rows of a dictionary page; `none` declines the page. -/
def selectedPageIds (data : List UInt8) (dictionaryLen : ℕ) (selectedRuns : List (ℕ × ℕ)) (pageRowStart pageRows : ℕ)
    (adaptiveBlockCandidate : Bool) : Result (Option (List ℤ)) :=
  let stats := selectedPageRunStats pageRowStart pageRows selectedRuns 0 0
  if adaptiveBlockCandidate && shouldUseBlockedSelectedDictionaryDecode pageRows stats.1 stats.2 then
    (Encoded.decodeDictionaryIndicesSelectedRangesBlocked data pageRows dictionaryLen selectedRuns pageRowStart pageRows []).map
      fun (complete,ids) => if !complete || ids.length ≠ stats.1 then none else some ids
  else
    (Encoded.decodeDictionaryIndicesSelectedRanges pageRows dictionaryLen pageRowStart pageRows data selectedRuns []).map
      fun ids => if adaptiveBlockCandidate && ids.length ≠ stats.1 then none else some ids

def appendSelectedDirectPrimitivePageValues (width : ℕ) (buf : List UInt8) (valueStart : ℕ) (encoding : Encoding)
    (dictionary : Option DirectPrimitiveDictionary) (selectedRuns : List (ℕ × ℕ)) (pageRowStart pageRows : ℕ)
    (adaptiveBlockCandidate : Bool) (output : List ℤ) : Result (Option (List ℤ)) :=
  if encoding = .plain then
    (compactPlainPageSelectedRanges width buf valueStart pageRowStart pageRows selectedRuns output).map some
  else if encoding ≠ .rleDictionary ∧ encoding ≠ .plainDictionary then .ok none
  else
    match dictionary with
    | none => .ok none
    | some dictionary =>
      (selectedPageIds (buf.drop valueStart) dictionary.values selectedRuns pageRowStart pageRows adaptiveBlockCandidate).bind fun
        | none => .ok none
        | some ids => (dictionary.appendSelectedValues width ids output).map some

def allEqual (expected : ℕ) : ℕ → SimpleRleBitpackedDecoder → Result Bool
  | 0, _ => .ok true
  | n + 1, d => d.nextValue.bind fun
    | (none,_) => .ok false
    | (some value,d) => if value ≠ expected then .ok false else allEqual expected n d

def plainPageAllPresent (data : List UInt8) (maxDefLevel rows : ℕ) : Result Bool :=
  if 16 < numRequiredBits maxDefLevel then .ok false
  else allEqual maxDefLevel rows (.new data (numRequiredBits maxDefLevel))

/-- Where the values of a data page without NULLs start; `none` declines the page. -/
def pageValueStart (maxDefLevel : ℕ) : ColumnPage → Result (Option ℕ)
  | .dictionary .. => .ok none
  | .data buf numValues _ defLevelEncoding =>
    if 0 < maxDefLevel then
      if defLevelEncoding ≠ .rle then .ok none
      else (parseV1RleLevelData buf).bind fun (bytesRead,levelData) =>
        (plainPageAllPresent levelData maxDefLevel numValues).map fun present => if present then some bytesRead else none
    else .ok (some 0)
  | .dataV2 buf _ _ numNulls defLevelsByteLen repLevelsByteLen =>
    if 0 < maxDefLevel ∧ numNulls ≠ 0 then .ok none
    else if buf.length < repLevelsByteLen + defLevelsByteLen then .ok none
    else .ok (some (repLevelsByteLen + defLevelsByteLen))

/-- What the reader knows between two pages. -/
structure ColumnLoop where
  pageRowStart : ℕ := 0
  cursor : List (ℕ × ℕ)
  dictionary : Option DirectPrimitiveDictionary := none
  output : List ℤ := []
  pageRowsHint : Option ℕ := none
  pruningCandidate : Option Bool := none

namespace ColumnLoop

def endPage (s : ColumnLoop) (rows : ℕ) (output : List ℤ) : ColumnLoop :=
  { s with
    pageRowStart := s.pageRowStart + rows
    cursor := advanceRunCursor s.cursor s.pageRowStart
    output := output
    pageRowsHint := some rows }

section Page
variable (column : PrimitiveColumnDesc) (width : ℕ) (adaptiveBlockCandidate : Bool)

/-- A data page: passed over, or its selected values appended. -/
def readDataPage (s : ColumnLoop) (page : ColumnPage) (buf : List UInt8) (encoding : Encoding) : Result (Option ColumnLoop) :=
  let cursor := advanceRunCursor s.cursor s.pageRowStart
  if runsOverlapFrom cursor s.pageRowStart (s.pageRowStart + page.rows) then
    (pageValueStart column.maxDefLevel page).bind fun
      | none => .ok none
      | some valueStart =>
        (appendSelectedDirectPrimitivePageValues width buf valueStart encoding s.dictionary cursor s.pageRowStart page.rows
          adaptiveBlockCandidate s.output).map fun output => output.map fun output => s.endPage page.rows output
  else .ok (some (s.endPage page.rows s.output))

def readColumnPage (s : ColumnLoop) : ColumnPage → Result (Option ColumnLoop)
  | .dictionary buf numValues encoding =>
    if encoding ≠ .plain ∨ s.dictionary.isSome then .ok none
    else .ok ((DirectPrimitiveDictionary.fromPlain width buf numValues).map fun dictionary =>
      { s with dictionary := some dictionary })
  | .data buf numValues encoding defLevelEncoding =>
    s.readDataPage column width adaptiveBlockCandidate (.data buf numValues encoding defLevelEncoding) buf encoding
  | .dataV2 buf numValues encoding numNulls defLevelsByteLen repLevelsByteLen =>
    s.readDataPage column width adaptiveBlockCandidate
      (.dataV2 buf numValues encoding numNulls defLevelsByteLen repLevelsByteLen) buf encoding

end Page

end ColumnLoop

/-- What a page reader tells about a page before reading it. -/
structure PageMetadata where
  numRows : Option ℕ
  numLevels : Option ℕ
  isDict : Bool

def ColumnPage.metadata : ColumnPage → PageMetadata
  | dictionary .. => ⟨none,none,true⟩
  | data _ numValues .. => ⟨none,some numValues,false⟩
  | dataV2 _ numValues .. => ⟨some numValues,some numValues,false⟩

def directPrimitivePageRows (metadata : PageMetadata) : Option ℕ :=
  if metadata.isDict then none else metadata.numRows.or metadata.numLevels

/-- Whether a page of the predicted number of rows would have to be read; the cursor is advanced. -/
def predictedOverlap (records predicted : ℕ) (s : ColumnLoop) : Bool :=
  decide (s.pageRowStart + predicted ≤ records) && runsOverlapFrom s.cursor s.pageRowStart (s.pageRowStart + predicted)

def ColumnLoop.afterPrediction (s : ColumnLoop) (records predicted : ℕ) : ColumnLoop :=
  if s.pageRowStart + predicted ≤ records then { s with cursor := advanceRunCursor s.cursor s.pageRowStart } else s

/-- The pages that are left to read; the flag is false when there is no next page. -/
def skipUnselectedDirectPrimitivePages (records : ℕ) (pages : List ColumnPage) (s : ColumnLoop) :
    Bool × List ColumnPage × ColumnLoop :=
  match s.pageRowsHint with
  | none => (true,pages,s)
  | some predicted =>
    let s := s.afterPrediction records predicted
    if predictedOverlap records predicted s then (true,pages,s)
    else
      match pages with
      | [] => (false,[],s)
      | page :: rest =>
        if page.metadata.isDict then (true,page :: rest,s)
        else
          match directPrimitivePageRows page.metadata with
          | none => (true,page :: rest,s)
          | some pageRows =>
            if records < s.pageRowStart + pageRows then (true,page :: rest,s)
            else
              let s := { s with cursor := advanceRunCursor s.cursor s.pageRowStart }
              if runsOverlapFrom s.cursor s.pageRowStart (s.pageRowStart + pageRows) then (true,page :: rest,s)
              else skipUnselectedDirectPrimitivePages records rest
                { s with pageRowStart := s.pageRowStart + pageRows, pageRowsHint := some pageRows }

/-- Whether the runs leave a gap of the size of a page, from the end of the runs before. -/
def pageSizedGapFrom (records pageRows : ℕ) : List (ℕ × ℕ) → ℕ → Bool
  | [], selectedEnd => pageRows ≤ records - selectedEnd
  | (start,len) :: runs, selectedEnd =>
    if pageRows ≤ start - selectedEnd then true else pageSizedGapFrom records pageRows runs (max selectedEnd (start + len))

def selectedRunsHavePageSizedGap (records : ℕ) (selectedRuns : List (ℕ × ℕ)) (pageRows : ℕ) : Bool :=
  if pageRows = 0 then false else pageSizedGapFrom records pageRows selectedRuns 0

/-- Whether pages are skipped from here on, remembered after the first data page. -/
def ColumnLoop.usePruning (enabled : Bool) (records : ℕ) (selectedRuns : List (ℕ × ℕ)) (s : ColumnLoop) : Bool × ColumnLoop :=
  if !enabled then (false,s)
  else
    match s.pruningCandidate, s.pageRowsHint with
    | some candidate, _ => (candidate,s)
    | none, some pageRows =>
      let candidate := selectedRunsHavePageSizedGap records selectedRuns pageRows
      (candidate,{ s with pruningCandidate := some candidate })
    | none, none => (false,s)

section Column
variable (column : PrimitiveColumnDesc) (width records : ℕ) (selectedRuns : List (ℕ × ℕ)) (adaptiveBlockCandidate predecode : Bool)

/-- The loop over the pages; every turn that goes on takes a page. -/
def readColumnPages : ℕ → List ColumnPage → ColumnLoop → Result (Option ColumnLoop)
  | 0, _, _ => .ok none
  | fuel + 1, pages, s =>
    let (use,s) := s.usePruning predecode records selectedRuns
    let (more,pages,s) := if use then skipUnselectedDirectPrimitivePages records pages s else (true,pages,s)
    if !more then .ok (some s)
    else
      match pages with
      | [] => .ok (some s)
      | page :: pages => (s.readColumnPage column width adaptiveBlockCandidate page).bind fun
        | none => .ok none
        | some s => readColumnPages fuel pages s

end Column

structure SelectedReadSettings where
  adaptiveDecode : Bool
  predecodePruning : Bool

def readDictionarySelectedDirectPrimitiveValuesForRowGroup (settings : SelectedReadSettings) (column : PrimitiveColumnDesc)
    (columnType : DirectPrimitiveColumnType) (pages : List ColumnPage) (records : ℕ) (selectedRuns : List (ℕ × ℕ))
    (selectedRows : ℕ) : Result (Option (List ℤ)) :=
  if column.maxRepLevel ≠ 0 ∨ 1 < column.maxDefLevel ∨ !directPrimitivePageColumnTypeMatches column.physicalType columnType then
    .ok none
  else
    let adaptiveBlockCandidate := settings.adaptiveDecode &&
      shouldUseBlockedSelectedDictionaryDecode records selectedRows selectedRuns.length
    (readColumnPages column columnType.width records selectedRuns adaptiveBlockCandidate settings.predecodePruning
      (pages.length + 1) pages { cursor := selectedRuns }).map fun s =>
        s.bind fun s => if s.pageRowStart ≠ records ∨ s.output.length ≠ selectedRows then none else some s.output

end Dodam.Storage

/-! ## The selected values of a column, with and without skipped pages

Skipping a page has the effect of passing over it, so the loop ends in the same way.
On pages that hold values the loop appends the selected ones page by page.
-/
namespace Dodam.Storage
open Foundation Execution

section Skipping
variable {column : PrimitiveColumnDesc} {width records : ℕ} {runs : List (ℕ × ℕ)} {adaptive predecode : Bool}
  {s s' t : ColumnLoop} {page : ColumnPage} {pages rest : List ColumnPage}

def ColumnLoop.view (s : ColumnLoop) : ℕ × List (ℕ × ℕ) × Option DirectPrimitiveDictionary × List ℤ :=
  (s.pageRowStart,advanceRunCursor s.cursor s.pageRowStart,s.dictionary,s.output)

def endView (result : Result (Option ColumnLoop)) :
    Result (Option (ℕ × List (ℕ × ℕ) × Option DirectPrimitiveDictionary × List ℤ)) := result.map (Option.map ColumnLoop.view)

def readEveryPage (column : PrimitiveColumnDesc) (width : ℕ) (adaptive : Bool) : List ColumnPage → ColumnLoop →
    Result (Option ColumnLoop)
  | [], s => .ok (some s)
  | page :: pages, s => (s.readColumnPage column width adaptive page).bind fun
    | none => .ok none
    | some s => readEveryPage column width adaptive pages s

@[simp] theorem advanceRunCursor_advance (cursor : List (ℕ × ℕ)) (row : ℕ) :
    advanceRunCursor (advanceRunCursor cursor row) row = advanceRunCursor cursor row := by
  cases h : advanceRunCursor cursor row with
  | nil => simp [advanceRunCursor]
  | cons r left =>
    have hhead := advanceRunCursor_head h
    rw [advanceRunCursor,List.dropWhile_cons_of_neg (by simpa using hhead)]

theorem view_afterPrediction (s : ColumnLoop) (records predicted : ℕ) : (s.afterPrediction records predicted).view = s.view := by
  unfold ColumnLoop.afterPrediction
  split_ifs <;> simp [ColumnLoop.view]

theorem view_usePruning (s : ColumnLoop) (enabled : Bool) (records : ℕ) (runs : List (ℕ × ℕ)) :
    (s.usePruning enabled records runs).2.view = s.view := by
  unfold ColumnLoop.usePruning
  split_ifs
  · simp
  · split <;> simp [ColumnLoop.view]

theorem readDataPage_view (h : s.view = t.view) (buf : List UInt8) (encoding : Encoding) :
    endView (s.readDataPage column width adaptive page buf encoding) =
      endView (t.readDataPage column width adaptive page buf encoding) := by
  simp only [ColumnLoop.view,Prod.mk.injEq] at h
  obtain ⟨hstart,hcursor,hdictionary,houtput⟩ := h
  rw [hstart] at hcursor
  have hend : ∀ output, (s.endPage page.rows output).view = (t.endPage page.rows output).view := by
    intro output
    simp only [ColumnLoop.view,ColumnLoop.endPage,hcursor,hstart,hdictionary]
  simp only [ColumnLoop.readDataPage,hcursor,hstart,hdictionary,houtput]
  split_ifs
  · cases pageValueStart column.maxDefLevel page with
    | error e => simp [endView,Except.bind,Except.map]
    | ok valueStart =>
      cases valueStart with
      | none => simp [endView,Except.bind,Except.map]
      | some valueStart =>
        simp only [endView,Except.bind]
        cases appendSelectedDirectPrimitivePageValues width buf valueStart encoding t.dictionary
            (advanceRunCursor t.cursor t.pageRowStart) t.pageRowStart page.rows adaptive t.output with
        | error e => simp [Except.map]
        | ok output => cases output <;> simp [Except.map,hend]
  · simp [endView,Except.map,hend]

theorem readColumnPage_view (h : s.view = t.view) (page : ColumnPage) :
    endView (s.readColumnPage column width adaptive page) = endView (t.readColumnPage column width adaptive page) := by
  cases page with
  | dictionary buf numValues encoding =>
    simp only [ColumnLoop.view,Prod.mk.injEq] at h
    obtain ⟨hstart,hcursor,hdictionary,houtput⟩ := h
    rw [hstart] at hcursor
    simp only [ColumnLoop.readColumnPage,hdictionary]
    split_ifs
    · simp [endView,Except.map]
    · cases DirectPrimitiveDictionary.fromPlain width buf numValues with
      | none => simp [endView,Except.map]
      | some dictionary => simp [endView,Except.map,ColumnLoop.view,hstart,hcursor,houtput]
  | data => exact readDataPage_view h ..
  | dataV2 => exact readDataPage_view h ..

theorem endView_bind {result result' : Result (Option ColumnLoop)} {next next' : Option ColumnLoop → Result (Option ColumnLoop)}
    (h : endView result = endView result') (hnone : endView (next none) = endView (next' none))
    (hsome : ∀ s t, s.view = t.view → endView (next (some s)) = endView (next' (some t))) :
    endView (result.bind next) = endView (result'.bind next') := by
  cases result with
  | error e =>
    cases result' with
    | error e' => simpa [endView,Except.map,Except.bind] using h
    | ok found => simp [endView,Except.map] at h
  | ok found =>
    cases result' with
    | error e' => simp [endView,Except.map] at h
    | ok found' =>
      have hview : found.map ColumnLoop.view = found'.map ColumnLoop.view := by simpa [endView,Except.map] using h
      cases found with
      | none =>
        cases found' with
        | none => exact hnone
        | some t => simp at hview
      | some s =>
        cases found' with
        | none => simp at hview
        | some t => exact hsome s t (by simpa using hview)

theorem readEveryPage_view (h : s.view = t.view) (pages : List ColumnPage) :
    endView (readEveryPage column width adaptive pages s) = endView (readEveryPage column width adaptive pages t) := by
  induction pages generalizing s t with
  | nil => simp [readEveryPage,endView,Except.map,h]
  | cons page pages ih => exact endView_bind (readColumnPage_view h page) rfl fun s t h => ih h

variable (column width adaptive) in
theorem readColumnPage_passed (hrows : directPrimitivePageRows page.metadata = some page.rows)
    (hoverlap : runsOverlapFrom (advanceRunCursor s.cursor s.pageRowStart) s.pageRowStart (s.pageRowStart + page.rows) = false) :
    s.readColumnPage column width adaptive page = .ok (some (s.endPage page.rows s.output)) := by
  cases page with
  | dictionary => simp [directPrimitivePageRows,ColumnPage.metadata] at hrows
  | data => simp only [ColumnLoop.readColumnPage,ColumnLoop.readDataPage,hoverlap,Bool.false_eq_true,if_false]
  | dataV2 => simp only [ColumnLoop.readColumnPage,ColumnLoop.readDataPage,hoverlap,Bool.false_eq_true,if_false]

theorem directPrimitivePageRows_eq {pageRows : ℕ} (h : directPrimitivePageRows page.metadata = some pageRows) :
    pageRows = page.rows := by
  cases page <;> simp_all [directPrimitivePageRows,ColumnPage.metadata,ColumnPage.rows]

/-- The pages that are skipped would be passed over. -/
theorem skipUnselected_view {more : Bool} (hskip : skipUnselectedDirectPrimitivePages records pages s = (more,rest,s')) :
    endView (readEveryPage column width adaptive pages s) = endView (readEveryPage column width adaptive rest s') ∧
      rest.length ≤ pages.length ∧ (more = false → rest = []) := by
  induction pages generalizing s with
  | nil =>
    rw [skipUnselectedDirectPrimitivePages] at hskip
    split at hskip
    · cases hskip
      simp
    · dsimp only at hskip
      split_ifs at hskip <;> cases hskip <;> exact ⟨readEveryPage_view (view_afterPrediction ..).symm [],by simp,by simp⟩
  | cons page pages ih =>
    rw [skipUnselectedDirectPrimitivePages] at hskip
    split at hskip
    · cases hskip
      simp
    · next predicted _ =>
      have hview := view_afterPrediction s records predicted
      generalize s.afterPrediction records predicted = before at hskip hview
      have hstay : ∀ after : ColumnLoop, after.view = before.view →
          endView (readEveryPage column width adaptive (page :: pages) s) =
            endView (readEveryPage column width adaptive (page :: pages) after) :=
        fun _ hafter => readEveryPage_view (hview.symm.trans hafter.symm) _
      dsimp only at hskip
      split_ifs at hskip with hpredicted hdict
      · cases hskip
        exact ⟨hstay _ rfl,by simp,by simp⟩
      · cases hskip
        exact ⟨hstay _ rfl,by simp,by simp⟩
      · split at hskip
        · cases hskip
          exact ⟨hstay _ rfl,by simp,by simp⟩
        · next pageRows hrows =>
          split_ifs at hskip with hbeyond hoverlap
          · cases hskip
            exact ⟨hstay _ rfl,by simp,by simp⟩
          · cases hskip
            exact ⟨hstay _ (by simp [ColumnLoop.view]),by simp,by simp⟩
          · obtain ⟨hsame,hlen,hend⟩ := ih hskip
            cases directPrimitivePageRows_eq hrows
            have hpass := readColumnPage_passed column width adaptive hrows (by simpa using hoverlap)
            refine ⟨?_,hlen.trans (by simp),hend⟩
            rw [← hsame,hstay before rfl]
            simp only [readEveryPage,hpass,Except.bind]
            apply readEveryPage_view
            simp [ColumnLoop.view,ColumnLoop.endPage]

/-- The loop with skipped pages ends like the one that reads every page. -/
theorem readColumnPages_view {fuel : ℕ} (hfuel : pages.length < fuel) (h : s.view = t.view) :
    endView (readColumnPages column width records runs adaptive predecode fuel pages s) =
      endView (readEveryPage column width adaptive pages t) := by
  induction fuel generalizing pages s t with
  | zero => simp at hfuel
  | succ fuel ih =>
    have hpruning := view_usePruning s predecode records runs
    rw [readColumnPages]
    generalize s.usePruning predecode records runs = pruning at hpruning
    obtain ⟨use,s₁⟩ := pruning
    have hready : ∃ more rest s₂, (if use then skipUnselectedDirectPrimitivePages records pages s₁ else (true,pages,s₁)) =
        (more,rest,s₂) ∧ endView (readEveryPage column width adaptive pages t) = endView (readEveryPage column width adaptive rest s₂) ∧
        rest.length ≤ pages.length ∧ (more = false → rest = []) := by
      have ht : endView (readEveryPage column width adaptive pages t) = endView (readEveryPage column width adaptive pages s₁) :=
        readEveryPage_view (h.symm.trans hpruning.symm) pages
      cases use with
      | false => exact ⟨true,pages,s₁,by simp,ht,by simp,by simp⟩
      | true =>
        rcases hskip : skipUnselectedDirectPrimitivePages records pages s₁ with ⟨more,rest,s₂⟩
        obtain ⟨hsame,hlen,hend⟩ := skipUnselected_view hskip
        exact ⟨more,rest,s₂,by simp,ht.trans hsame,hlen,hend⟩
    obtain ⟨more,rest,s₂,hskip,hsame,hlen,hend⟩ := hready
    dsimp only
    rw [hskip,hsame]
    cases more with
    | false =>
      rw [hend rfl]
      simp [readEveryPage]
    | true =>
      cases rest with
      | nil => simp [readEveryPage]
      | cons page rest =>
        have hfuel' : rest.length < fuel := by
          simp only [List.length_cons] at hlen
          omega
        exact endView_bind rfl rfl fun _ _ hview => ih hfuel' hview

end Skipping

inductive PageHolds (maxDefLevel width : ℕ) (dictionary : Option DirectPrimitiveDictionary) (page : ColumnPage) : List ℤ → Prop
  | plain {valueStart : ℕ} (hencoding : page.encoding = .plain) (hstart : pageValueStart maxDefLevel page = .ok (some valueStart))
    (hlen : valueStart + page.rows * width ≤ page.buf.length) :
    PageHolds maxDefLevel width dictionary page (plainInts width page.buf valueStart page.rows)
  | ids {valueStart : ℕ} {d : DirectPrimitiveDictionary} {w : UInt8} {body : List UInt8} {ids : List ℕ}
    (hencoding : page.encoding = .rleDictionary ∨ page.encoding = .plainDictionary) (hdictionary : dictionary = some d)
    (hstart : pageValueStart maxDefLevel page = .ok (some valueStart)) (hdata : page.buf.drop valueStart = w :: body)
    (hw : w.toNat ≤ 32) (hbody : HybridEncodes w.toNat body ids) (hrows : ids.length = page.rows)
    (hids : ∀ id ∈ ids, id < d.values) :
    PageHolds maxDefLevel width dictionary page (ids.map fun id => plainInt width d.data (id * width))

/-- The values of a column chunk; page headers give the size of a page as a positive 32-bit integer. -/
inductive ColumnHolds (maxDefLevel width : ℕ) : Option DirectPrimitiveDictionary → List ColumnPage → List ℤ → Prop
  | nil (dictionary : Option DirectPrimitiveDictionary) : ColumnHolds maxDefLevel width dictionary [] []
  | dictionary {before : Option DirectPrimitiveDictionary} {d : DirectPrimitiveDictionary} {buf : List UInt8} {numValues : ℕ}
    {encoding : Encoding} {pages : List ColumnPage} {values : List ℤ}
    (hd : DirectPrimitiveDictionary.fromPlain width buf numValues = some d) (hsize : buf.length < 2 ^ 31)
    (h : ColumnHolds maxDefLevel width (some d) pages values) :
    ColumnHolds maxDefLevel width before (.dictionary buf numValues encoding :: pages) values
  | data {dictionary : Option DirectPrimitiveDictionary} {page : ColumnPage} {pages : List ColumnPage} {first rest : List ℤ}
    (hpage : PageHolds maxDefLevel width dictionary page first) (h : ColumnHolds maxDefLevel width dictionary pages rest) :
    ColumnHolds maxDefLevel width dictionary (page :: pages) (first ++ rest)

section Exact
variable {p : ℕ → Prop} [DecidablePred p] {runs cursor : List (ℕ × ℕ)} {row width : ℕ} {adaptive : Bool}

variable {valueStart rows maxDefLevel : ℕ} {dictionary : Option DirectPrimitiveDictionary}

theorem compactPlain_exact {buf : List UInt8} {output out : List ℤ} (hmarks : Marks p cursor)
    (hcompact : compactPlainPageSelectedRanges width buf valueStart row rows cursor output = .ok out) :
    out = output ++ selectAt p row (plainInts width buf valueStart rows) := by
  rw [compactPlainPageSelectedRanges] at hcompact
  split_ifs at hcompact with hoverlap hshort
  · cases hcompact
    have hnone : selectAt p row (plainInts width buf valueStart rows) = [] := by
      apply selectAt_none
      intro i hle hlt
      rw [length_plainInts] at hlt
      apply not_selected_of_not_overlaps hmarks _ hle hlt
      rintro ⟨r,hr,hstop,hrow⟩
      simp only [runsOverlap,Bool.not_eq_true',List.any_eq_false,Bool.and_eq_true,decide_eq_true_iff] at hoverlap
      exact hoverlap r hr ⟨hstop,hrow⟩
    simp [hnone]
  · unfold payloadMismatch at hcompact
    split_ifs at hcompact <;> cases hcompact
  · cases hcompact
    rw [hmarks.selectAt_eq,length_plainInts]
    congr 1
    apply List.flatMap_congr
    intro r hr
    obtain ⟨hle,hhi⟩ := (hmarks.rangesOf row rows).bounds hr
    rw [slice,slice_plainInts _ _ _ (by omega)]

theorem selectedPageIds_exact {w : UInt8} {body : List UInt8} {ids : List ℕ} {dictionaryLen : ℕ} {selected : List ℤ}
    (hmarks : Marks p cursor) (hw : w.toNat ≤ 32) (hbody : HybridEncodes w.toNat body ids) (hrows : ids.length = rows)
    (hids : ∀ id ∈ ids, id < dictionaryLen ∧ id < 2 ^ 31)
    (hselected : selectedPageIds (w :: body) dictionaryLen cursor row rows adaptive = .ok (some selected)) :
    selected = selectAt p row (ids.map asI32) := by
  subst hrows
  unfold selectedPageIds at hselected
  dsimp only at hselected
  split_ifs at hselected
  · rw [Encoded.decodeSelectedRangesBlocked_eq hw hbody hids hmarks,if_pos rfl] at hselected
    simp only [Except.map,Except.ok.injEq] at hselected
    split_ifs at hselected
    simpa using hselected.symm
  · rw [Encoded.decodeSelectedRanges_eq hw hbody (fun id hid => (hids id hid).1) le_rfl hmarks] at hselected
    simp only [Except.map,Except.ok.injEq] at hselected
    split_ifs at hselected
    rw [List.take_of_length_le (by simp)] at hselected
    simpa using hselected.symm

theorem mapM_value {d : DirectPrimitiveDictionary} {ids : List ℕ} (hids : ∀ id ∈ ids, id < d.values ∧ id < 2 ^ 31) :
    (ids.map asI32).mapM (d.value width) = .ok (ids.map fun id => plainInt width d.data (id * width)) := by
  rw [mapM_ok_iff,List.forall₂_map_left_iff,List.forall₂_map_right_iff,List.forall₂_same]
  intro id hid
  obtain ⟨hlt,hsmall⟩ := hids id hid
  rw [Encoded.asI32_of_lt hsmall,DirectPrimitiveDictionary.value,if_neg (by omega),if_neg (by simpa using hlt)]
  simp

theorem appendSelected_exact {page : ColumnPage}
    {values output out : List ℤ} (hmarks : Marks p cursor) (hholds : PageHolds maxDefLevel width dictionary page values)
    (hsmall : ∀ d, dictionary = some d → d.values < 2 ^ 31) (hstart : pageValueStart maxDefLevel page = .ok (some valueStart))
    (happend : appendSelectedDirectPrimitivePageValues width page.buf valueStart page.encoding dictionary cursor row page.rows adaptive
      output = .ok (some out)) : out = output ++ selectAt p row values := by
  cases hholds with
  | plain hencoding hstart' hlen =>
    rw [hstart] at hstart'
    cases hstart'
    unfold appendSelectedDirectPrimitivePageValues at happend
    rw [if_pos hencoding] at happend
    obtain ⟨out',hcompact,hout⟩ := except_map_eq_ok.mp happend
    cases hout
    exact compactPlain_exact hmarks hcompact
  | @ids _ d w body ids hencoding hdictionary hstart' hdata hw hbody hrows hids =>
    rw [hstart] at hstart'
    cases hstart'
    have hids' : ∀ id ∈ ids, id < d.values ∧ id < 2 ^ 31 := fun id hid => ⟨hids id hid,(hids id hid).trans (hsmall d hdictionary)⟩
    unfold appendSelectedDirectPrimitivePageValues at happend
    rw [if_neg (by rcases hencoding with h | h <;> simp [h]),if_neg (by rcases hencoding with h | h <;> simp [h]),hdata] at happend
    simp only [hdictionary] at happend
    obtain ⟨selected,hselected,happend⟩ := except_bind_eq_ok.mp happend
    cases selected with
    | none => cases happend
    | some selected =>
      obtain ⟨out',hvalues,hout⟩ := except_map_eq_ok.mp happend
      cases hout
      have hids := selectedPageIds_exact hmarks hw hbody hrows hids' hselected
      rw [selectAt_map] at hids
      have hmem : ∀ id ∈ selectAt p row ids, id < d.values ∧ id < 2 ^ 31 := fun id hid =>
        hids' id ((selectAt_sublist row ids).subset hid)
      rw [DirectPrimitiveDictionary.appendSelectedValues,hids,mapM_value hmem] at hvalues
      simp only [Except.map,Except.ok.injEq] at hvalues
      rw [selectAt_map,hvalues]

/-- The loop after pages with some values: it has appended the selected ones. -/
structure ColumnLoop.Exact (p : ℕ → Prop) [DecidablePred p] (runs : List (ℕ × ℕ)) (seen : List ℤ) (s : ColumnLoop) : Prop where
  pageRowStart : s.pageRowStart = seen.length
  cursor : CursorPassed runs s.cursor s.pageRowStart
  output : s.output = selectAt p 0 seen
  dictionary : ∀ d, s.dictionary = some d → d.values < 2 ^ 31

variable {column : PrimitiveColumnDesc} {s s' : ColumnLoop} {page : ColumnPage} {pages : List ColumnPage}
  {seen values : List ℤ}

theorem length_of_pageHolds
    (h : PageHolds maxDefLevel width dictionary page values) : values.length = page.rows := by
  cases h with
  | plain => simp
  | ids _ _ _ _ _ _ hrows _ => simpa using hrows

theorem ColumnLoop.Exact.data (hruns : Marks p runs) (h : s.Exact p runs seen)
    (hpage : PageHolds column.maxDefLevel width s.dictionary page values)
    (hread : s.readDataPage column width adaptive page page.buf page.encoding = .ok (some s')) :
    s'.Exact p runs (seen ++ values) ∧ s'.dictionary = s.dictionary := by
  have hlength := length_of_pageHolds hpage
  have hadvance := h.cursor.advance (Nat.le_add_right s.pageRowStart page.rows)
  have hselect : selectAt p 0 (seen ++ values) = s.output ++ selectAt p s.pageRowStart values := by
    rw [selectAt_append,Nat.zero_add,h.output,h.pageRowStart]
  have hend : ∀ {output : List ℤ}, output = selectAt p 0 (seen ++ values) →
      (s.endPage page.rows output).Exact p runs (seen ++ values) := by
    intro output houtput
    exact ⟨by simp [ColumnLoop.endPage,h.pageRowStart,hlength],hadvance,houtput,h.dictionary⟩
  rw [ColumnLoop.readDataPage] at hread
  split_ifs at hread with hoverlap
  · obtain ⟨valueStart,hstart,hread⟩ := except_bind_eq_ok.mp hread
    cases valueStart with
    | none => cases hread
    | some valueStart =>
      obtain ⟨result,happend,hread⟩ := except_map_eq_ok.mp hread
      obtain ⟨out,rfl,rfl⟩ := Option.map_eq_some_iff.mp hread
      have hcursor := h.cursor.advance le_rfl
      have hout := appendSelected_exact (hcursor.marks hruns).1 hpage h.dictionary hstart happend
      rw [← hcursor.selectAt_eq hruns,← hselect] at hout
      exact ⟨hend hout,rfl⟩
  · cases hread
    refine ⟨hend ?_,rfl⟩
    have hnone : selectAt p s.pageRowStart values = [] := by
      apply selectAt_none
      intro i hle hlt
      rw [hlength] at hlt
      exact not_selected_of_not_overlaps hruns ((h.cursor.overlap_iff hruns.sorted).not.mp hoverlap) hle hlt
    rw [hselect,hnone,List.append_nil]

theorem readEveryPage_exact (hwidth : 0 < width) (hruns : Marks p runs)
    (hholds : ColumnHolds column.maxDefLevel width dictionary pages values) (hdictionary : s.dictionary = dictionary)
    (h : s.Exact p runs seen) (hread : readEveryPage column width adaptive pages s = .ok (some s')) :
    s'.Exact p runs (seen ++ values) := by
  induction hholds generalizing s seen with
  | nil =>
    cases hread
    simpa using h
  | @dictionary before d buf numValues encoding pages values hd hsize hholds ih =>
    obtain ⟨next,hnext,hrest⟩ := except_bind_eq_ok.mp hread
    rw [ColumnLoop.readColumnPage] at hnext
    split_ifs at hnext
    · cases hnext
      cases hrest
    · rw [hd] at hnext
      cases hnext
      have hsmall : d.values < 2 ^ 31 := by
        unfold DirectPrimitiveDictionary.fromPlain at hd
        split_ifs at hd with hshort
        cases hd
        have := Nat.le_mul_of_pos_right numValues hwidth
        simp only
        omega
      have hnext : ({ s with dictionary := some d } : ColumnLoop).Exact p runs seen := by
        refine ⟨h.pageRowStart,h.cursor,h.output,?_⟩
        rintro _ ⟨⟩
        exact hsmall
      exact ih rfl hnext hrest
  | @data dictionary page pages first rest hpage hholds ih =>
    obtain ⟨next,hnext,hrest⟩ := except_bind_eq_ok.mp hread
    cases next with
    | none => cases hrest
    | some next =>
      have hdata : s.readDataPage column width adaptive page page.buf page.encoding = .ok (some next) := by
        cases page with
        | dictionary => cases hpage with
          | plain _ hstart _ => simp [pageValueStart] at hstart
          | ids _ _ hstart => simp [pageValueStart] at hstart
        | data => exact hnext
        | dataV2 => exact hnext
      subst hdictionary
      obtain ⟨hexact,hsame⟩ := h.data hruns hpage hdata
      rw [← List.append_assoc]
      exact ih hsame hexact hrest

end Exact

section Column
variable {column : PrimitiveColumnDesc} {columnType : DirectPrimitiveColumnType} {pages : List ColumnPage} {records selectedRows : ℕ}
  {runs : List (ℕ × ℕ)} {adaptive predecode : Bool} {output : List ℤ}

/-- The flag that the reader computes from the whole column chunk. -/
def adaptiveCandidate (adaptive : Bool) (records selectedRows : ℕ) (runs : List (ℕ × ℕ)) : Bool :=
  adaptive && shouldUseBlockedSelectedDictionaryDecode records selectedRows runs.length

theorem readColumn_eq_ok : readDictionarySelectedDirectPrimitiveValuesForRowGroup ⟨adaptive,predecode⟩ column columnType pages records
    runs selectedRows = (if column.maxRepLevel ≠ 0 ∨ 1 < column.maxDefLevel ∨
        !directPrimitivePageColumnTypeMatches column.physicalType columnType then .ok none
      else (endView (readEveryPage column columnType.width (adaptiveCandidate adaptive records selectedRows runs) pages
          { cursor := runs })).map fun view => view.bind fun view =>
        if view.1 ≠ records ∨ view.2.2.2.length ≠ selectedRows then none else some view.2.2.2) := by
  have hview : endView (readColumnPages column columnType.width records runs (adaptiveCandidate adaptive records selectedRows runs)
        predecode (pages.length + 1) pages { cursor := runs }) =
      endView (readEveryPage column columnType.width (adaptiveCandidate adaptive records selectedRows runs) pages
        { cursor := runs }) :=
    readColumnPages_view pages.length.lt_succ_self rfl
  rw [readDictionarySelectedDirectPrimitiveValuesForRowGroup,← hview]
  split_ifs
  · simp
  · simp only [adaptiveCandidate]
    cases readColumnPages column columnType.width records runs
        (adaptive && shouldUseBlockedSelectedDictionaryDecode records selectedRows runs.length) predecode (pages.length + 1) pages
        { cursor := runs } with
    | error e => simp [endView,Except.map]
    | ok s => cases s <;> simp [endView,Except.map,ColumnLoop.view]

end Column

/-- On pages that hold the values of a column, every output is the selected values in order; and no output depends on
whether pages are skipped. -/
theorem readDictionarySelected_exact {p : ℕ → Prop} [DecidablePred p] {runs : List (ℕ × ℕ)} (hruns : Marks p runs)
    (adaptive : Bool) (column : PrimitiveColumnDesc) (columnType : DirectPrimitiveColumnType) {pages : List ColumnPage} {values : List ℤ}
    (hholds : ColumnHolds column.maxDefLevel columnType.width none pages values) (records selectedRows : ℕ) :
    (∀ predecode output, readDictionarySelectedDirectPrimitiveValuesForRowGroup ⟨adaptive,predecode⟩ column columnType pages records runs
        selectedRows = .ok (some output) → output = selectAt p 0 values) ∧
      readDictionarySelectedDirectPrimitiveValuesForRowGroup ⟨adaptive,true⟩ column columnType pages records runs selectedRows =
        readDictionarySelectedDirectPrimitiveValuesForRowGroup ⟨adaptive,false⟩ column columnType pages records runs selectedRows := by
  refine ⟨fun predecode output hread => ?_,by rw [readColumn_eq_ok,readColumn_eq_ok]⟩
  rw [readColumn_eq_ok] at hread
  split_ifs at hread
  · cases hread
  obtain ⟨view,hend,hview⟩ := except_map_eq_ok.mp hread
  obtain ⟨view,rfl,houtput⟩ := Option.bind_eq_some_iff.mp hview
  obtain ⟨result,hpages,hresult⟩ := except_map_eq_ok.mp hend
  obtain ⟨s,rfl,rfl⟩ := Option.map_eq_some_iff.mp hresult
  have hstart : ({ cursor := runs } : ColumnLoop).Exact p runs [] :=
    ⟨rfl,cursorPassed_start runs 0,by simp,by simp⟩
  have hwidth : 0 < columnType.width := by cases columnType <;> simp [DirectPrimitiveColumnType.width]
  have hexact := readEveryPage_exact hwidth hruns hholds rfl hstart hpages
  split_ifs at houtput
  cases houtput
  exact hexact.output

def requiredI32 : PrimitiveColumnDesc := ⟨.int32,0,0⟩

/-- A dictionary of 5 and 9, a page of three ids into it, and a plain page of 7 and 8. -/
def fiveValues : List ColumnPage :=
  [.dictionary [5,0,0,0,9,0,0,0] 2 .plain,.data [1,3,6] 3 .rleDictionary .rle,.dataV2 [7,0,0,0,8,0,0,0] 2 .plain 0 0 0]

/-- The rows from the second to the fourth one are selected, over the end of a page. -/
theorem readDictionarySelected_exact_five :
    (∀ predecode output, readDictionarySelectedDirectPrimitiveValuesForRowGroup ⟨true,predecode⟩ requiredI32 .i32 fiveValues 5 [(1,3)] 3 =
        .ok (some output) → output = selectAt (fun i => inIntervals [(1,3)] i = true) 0
          (([0,1,1].map fun id => plainInt 4 [5,0,0,0,9,0,0,0] (id * 4)) ++ (plainInts 4 [7,0,0,0,8,0,0,0] 0 2 ++ []))) ∧
      readDictionarySelectedDirectPrimitiveValuesForRowGroup ⟨true,true⟩ requiredI32 .i32 fiveValues 5 [(1,3)] 3 =
        readDictionarySelectedDirectPrimitiveValuesForRowGroup ⟨true,false⟩ requiredI32 .i32 fiveValues 5 [(1,3)] 3 := by
  have hrun : HybridRun 1 ([3] ++ [6]) [0,1,1,0,0,0,0,0] := .packed (n := 1) (headerBytes_singleton rfl (by decide)) rfl
  have hbody : HybridEncodes 1 [3,6] [0,1,1] := ⟨[0,0,0,0,0],.cons hrun .nil⟩
  have hlast : PageHolds 0 4 (some ⟨[5,0,0,0,9,0,0,0],2⟩) (.dataV2 [7,0,0,0,8,0,0,0] 2 .plain 0 0 0)
      (plainInts 4 [7,0,0,0,8,0,0,0] 0 2) := .plain rfl rfl (by decide)
  have hids : PageHolds 0 4 (some ⟨[5,0,0,0,9,0,0,0],2⟩) (.data [1,3,6] 3 .rleDictionary .rle)
      ([0,1,1].map fun id => plainInt 4 [5,0,0,0,9,0,0,0] (id * 4)) :=
    @PageHolds.ids 0 4 _ _ 0 ⟨[5,0,0,0,9,0,0,0],2⟩ 1 _ _ (.inl rfl) rfl rfl rfl (by decide) hbody rfl (by simp)
  have hholds : ColumnHolds 0 4 none fiveValues
      (([0,1,1].map fun id => plainInt 4 [5,0,0,0,9,0,0,0] (id * 4)) ++ (plainInts 4 [7,0,0,0,8,0,0,0] 0 2 ++ [])) :=
    .dictionary rfl (by decide) (.data hids (.data hlast (.nil _)))
  exact readDictionarySelected_exact (marks_inIntervals (by decide) (by decide)) true requiredI32 .i32 hholds 5 3

example : readDictionarySelectedDirectPrimitiveValuesForRowGroup ⟨true,true⟩ requiredI32 .i32 fiveValues 5 [(1,3)] 3 =
    .ok (some [9,9,7]) := by decide +kernel

end Dodam.Storage
