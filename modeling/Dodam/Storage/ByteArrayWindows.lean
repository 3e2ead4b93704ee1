import Dodam.Storage.ByteArrayScan

/-! # The windows of the page reader

Each cursor stands before the rows that its column still has.
-/
namespace Dodam.Storage
open Foundation Execution ByteArrayDictionaryPageCursor Encoded

section Numbers
variable {direct : Prop} {c : RequiredPlainPrimitivePageCursor} {numbers : List ℤ}

theorem plainInts_slice {size : ℕ} {buf : List UInt8} {a b n : ℕ} (h : a + n * size ≤ b) :
    plainInts size (slice buf a b) 0 n = plainInts size buf a n := by
  refine List.map_congr_left fun row hrow => ?_
  have hlt := List.mem_range.mp hrow
  have hend : row * size + size ≤ n * size := by
    rw [← Nat.succ_mul]
    exact Nat.mul_le_mul_right size hlt
  have hbytes : ((slice buf a b).drop (0 + row * size)).take size = (buf.drop (a + row * size)).take size := by
    rw [slice,List.drop_take,List.take_take,List.drop_drop,Nat.zero_add,Nat.min_eq_left (by omega)]
  rw [plainInt,plainInt,hbytes]

structure NumbersBefore (direct : Prop) (c : RequiredPlainPrimitivePageCursor) (numbers : List ℤ) : Prop where
  rows : ∃ dictionary later, ColumnHolds 0 4 dictionary c.pages later ∧
    numbers = plainInts 4 c.values (c.valueOffset * 4) c.rowsRemaining ++ later
  bytes : c.valueOffset * 4 + c.rowsRemaining * 4 ≤ c.values.length
  direct : direct → DirectNumbers c.pages

theorem NumbersBefore.ensurePage (h : NumbersBefore direct c numbers) (hne : numbers ≠ []) :
    Reads direct (fun c' => NumbersBefore direct c' numbers ∧ (direct → 0 < c'.rowsRemaining)) c.ensurePage := by
  unfold RequiredPlainPrimitivePageCursor.ensurePage
  split_ifs with hrows
  · exact reads_some ⟨h,fun _ => hrows⟩
  obtain ⟨dictionary,later,hlater,hnumbers⟩ := h.rows
  obtain hzero : c.rowsRemaining = 0 := by omega
  rw [hzero] at hnumbers
  obtain rfl : numbers = later := hnumbers
  unfold RequiredPlainPrimitivePageCursor.loadNextPage
  have hdirect := h.direct
  cases hpages : c.pages with
  | nil =>
    rw [hpages] at hlater
    cases hlater
    exact (hne rfl).elim
  | cons page pages =>
    rw [hpages] at hlater hdirect
    have hfirst : direct → page.isPlain ∧ 0 < page.rows := fun hd => hdirect hd page List.mem_cons_self
    dsimp only
    split_ifs with hplain
    · refine reads_none fun hd => ?_
      rw [(hfirst hd).1] at hplain
      cases hplain
    · cases hlater with
      | dictionary => exact (hplain rfl).elim
      | @data _ _ _ first rest hpage hrest =>
        cases hpage with
        | @plain start hencoding hstart hlen =>
          rw [hstart]
          refine reads_some ⟨⟨⟨dictionary,rest,hrest,?_⟩,?_,fun hd => ?_⟩,fun hd => (hfirst hd).2⟩
          · have hdrop : plainInts 4 (page.buf.drop start) (0 * 4) page.rows = plainInts 4 page.buf start page.rows := by
              have hslice := @plainInts_slice 4 page.buf start page.buf.length page.rows hlen
              rwa [slice,List.take_of_length_le (List.length_drop ..).le] at hslice
            exact congrArg (· ++ rest) hdrop.symm
          · change 0 * 4 + page.rows * 4 ≤ (page.buf.drop start).length
            rw [List.length_drop]
            omega
          · exact fun page' hpage' => hdirect hd page' (List.mem_cons_of_mem _ hpage')
        | ids hencoding _ hstart =>
          cases page with
          | dictionary => cases hstart
          | data _ _ encoding _ | dataV2 _ _ encoding _ _ _ =>
            refine (hplain ?_).elim
            rcases hencoding with hencoding | hencoding
            all_goals
              cases hencoding
              rfl

theorem NumbersBefore.rawBytes (h : NumbersBefore direct c numbers) {records : ℕ} (hrecords : records ≤ c.rowsRemaining) :
    ∃ bytes, c.rawBytes 4 records = some bytes ∧ bytes.length = records * 4 ∧
      plainInts 4 bytes 0 records = numbers.take records := by
  obtain ⟨dictionary,later,hlater,rfl⟩ := h.rows
  have hbytes := h.bytes
  have hend : c.valueOffset * 4 + records * 4 ≤ c.values.length := by omega
  refine ⟨slice c.values (c.valueOffset * 4) (c.valueOffset * 4 + records * 4),?_,?_,?_⟩
  · unfold RequiredPlainPrimitivePageCursor.rawBytes
    rw [if_neg (by omega),if_neg (by omega)]
  · rw [length_slice hend]
    omega
  · have htake := slice_plainInts 4 c.values (c.valueOffset * 4) (show 0 + records ≤ c.rowsRemaining by omega)
    rw [List.drop_zero,Nat.zero_mul,Nat.add_zero] at htake
    rw [plainInts_slice le_rfl,List.take_append_of_le_length (by rwa [length_plainInts]),htake]

theorem NumbersBefore.advance (h : NumbersBefore direct c numbers) {records : ℕ} (hrecords : records ≤ c.rowsRemaining) :
    NumbersBefore direct (c.advance records) (numbers.drop records) := by
  obtain ⟨dictionary,later,hlater,rfl⟩ := h.rows
  have hbytes := h.bytes
  refine ⟨⟨dictionary,later,hlater,?_⟩,?_,h.direct⟩
  · have hdrop := slice_plainInts 4 c.values (c.valueOffset * 4)
      (show records + (c.rowsRemaining - records) ≤ c.rowsRemaining by omega)
    rw [List.take_of_length_le (by rw [List.length_drop,length_plainInts]),← Nat.add_mul] at hdrop
    rw [List.drop_append_of_le_length (by rwa [length_plainInts]),hdrop]
    rfl
  · change (c.valueOffset + records) * 4 + (c.rowsRemaining - records) * 4 ≤ c.values.length
    omega

end Numbers
section Strings
variable {direct : Prop} {maxDefLevel : ℕ} {c : ByteArrayDictionaryPageCursor} {rows : List (Option Bytes)}

def ByteArrayDictionaryPageCursor.flags (c : ByteArrayDictionaryPageCursor) (maxDefLevel : ℕ) : List Bool :=
  if c.defLevels = [] then List.replicate c.encodedValues true else presentFlags maxDefLevel c.defLevels

def stringOf (dictionary : Option (List Bytes)) (id : Option ℕ) : Option Bytes :=
  id.bind fun id => (dictionary.getD [])[id]?

/-- The cursor is on a page with these ids; they are decoded or can be. -/
structure OnPage (maxDefLevel : ℕ) (c : ByteArrayDictionaryPageCursor) (ids : List ℕ) : Prop where
  count : (c.flags maxDefLevel).count true = ids.length
  values : c.encodedValues = ids.length
  rowOffset : c.rowOffset ≤ (c.flags maxDefLevel).length
  idOffset : c.idOffset = ((c.flags maxDefLevel).take c.rowOffset).count true
  known : ∀ id ∈ ids, id < (c.dictionary.getD []).length
  dictionary : c.flags maxDefLevel ≠ [] → c.dictionary.isSome
  small : (c.dictionary.getD []).length < 2 ^ 31
  decoded : c.ids = ids.map asI32 ∨ c.ids = [] ∧ ∃ w body, c.encodedIds = some (w :: body) ∧ w.toNat ≤ 32 ∧
    HybridEncodes w.toNat body ids

structure StringsBefore (direct : Prop) (maxDefLevel : ℕ) (c : ByteArrayDictionaryPageCursor) (rows : List (Option Bytes)) :
    Prop where
  rows : ∃ ids later, OnPage maxDefLevel c ids ∧ ByteArrayColumnHolds maxDefLevel c.dictionary c.pages later ∧
    rows = ((rowIds (c.flags maxDefLevel) ids).drop c.rowOffset).map (stringOf c.dictionary) ++ later
  direct : direct → DirectStrings maxDefLevel c.dictionary.isSome c.pages

theorem availableRows_eq (c : ByteArrayDictionaryPageCursor) (maxDefLevel : ℕ) :
    c.availableRows = (c.flags maxDefLevel).length - c.rowOffset := by
  unfold availableRows flags
  split_ifs
  · rw [List.length_replicate]
  · rw [presentFlags,List.length_map]

variable {page : ColumnPage} {pages : List ColumnPage}

theorem loadNextDataPage_data (pages : List ColumnPage) (c : ByteArrayDictionaryPageCursor)
    (h : page.isDictionary = false) :
    loadNextDataPage maxDefLevel (page :: pages) c = c.loadDataPage maxDefLevel page pages := by
  cases page with
  | dictionary => cases h
  | data | dataV2 => rfl

theorem loadDataPage_ids {entries : List Bytes} {start : ℕ} {levels : List ℤ}
    {w : UInt8} {body : List UInt8} {ids : List ℕ} {rest : List (Option Bytes)} (hencoding : page.isDictionaryEncoded)
    (hdictionary : c.dictionary = some entries) (hlevels : cursorLevels maxDefLevel page = .ok (some (start,levels,ids.length)))
    (hdata : page.buf.drop start = w :: body) (hw : w.toNat ≤ 32) (hbody : HybridEncodes w.toNat body ids)
    (hids : ∀ id ∈ ids, id < entries.length) (hsmall : entries.length < 2 ^ 31)
    (hrest : ByteArrayColumnHolds maxDefLevel (some entries) pages rest)
    (hdirect : direct → 0 < page.rows ∧ DirectStrings maxDefLevel true pages) :
    Reads direct (fun c' => StringsBefore direct maxDefLevel c' ((rowIds (pageFlags maxDefLevel page levels) ids).map
        (stringOf (some entries)) ++ rest) ∧ (direct → 0 < c'.availableRows)) (c.loadDataPage maxDefLevel page pages) := by
  obtain ⟨-,-,hzero,hnonzero⟩ := cursorLevels_spec hlevels
  obtain ⟨hlength,hcount⟩ := pageFlags_of_levels hlevels
  -- a loaded cursor with the flags of the page is what is asked for
  have hloaded : ∀ c' : ByteArrayDictionaryPageCursor, c'.flags maxDefLevel = pageFlags maxDefLevel page levels →
      c'.pages = pages → c'.dictionary = some entries → c'.encodedValues = ids.length → c'.rowOffset = 0 → c'.idOffset = 0 →
      (c'.ids = ids.map asI32 ∨ c'.ids = [] ∧ ∃ w body, c'.encodedIds = some (w :: body) ∧ w.toNat ≤ 32 ∧
        HybridEncodes w.toNat body ids) →
      StringsBefore direct maxDefLevel c' ((rowIds (pageFlags maxDefLevel page levels) ids).map
        (stringOf (some entries)) ++ rest) ∧ (direct → 0 < c'.availableRows) := by
    intro c' hflags hpages hentries hvalues hrow hid hdecoded
    refine ⟨⟨⟨ids,rest,⟨?_,hvalues,?_,?_,?_,?_,?_,hdecoded⟩,?_,?_⟩,fun hd => ?_⟩,fun hd => ?_⟩
    · rw [hflags,hcount]
    · rw [hrow]
      exact Nat.zero_le _
    · rw [hrow,hid]
      rfl
    · rwa [hentries]
    · intro _
      rw [hentries]
      rfl
    · rwa [hentries]
    · rwa [hentries,hpages]
    · rw [hflags,hrow,hentries,List.drop_zero]
    · rw [hentries,hpages]
      exact (hdirect hd).2
    · rw [availableRows_eq c' maxDefLevel,hflags,hrow,hlength]
      exact (hdirect hd).1
  unfold loadDataPage
  rw [if_neg (by rw [hencoding]; decide),hdictionary]
  dsimp only
  rw [hlevels,thenRead_some]
  rw [hdata]
  split_ifs with hmax
  · refine reads_some (hloaded _ ?_ rfl rfl rfl rfl rfl (.inr ⟨rfl,w,body,rfl,hw,hbody⟩))
    unfold flags pageFlags
    rw [if_pos rfl,if_pos hmax,(hzero hmax).2]
  · have hdecode := decodeDictionaryIndices_eq hw hbody fun id hid => ⟨hids id hid,(hids id hid).trans hsmall⟩
    rw [hdecode]
    change Reads direct _ (.ok (if (ids.map asI32).length ≠ ids.length then none else some _))
    rw [if_neg (not_not.mpr (List.length_map ..))]
    refine reads_some (hloaded _ ?_ rfl rfl rfl rfl rfl (.inl rfl))
    unfold flags pageFlags
    rw [if_neg hmax]
    dsimp only
    split_ifs with hnil
    · rw [hnil] at hnonzero
      rw [hnil,(hnonzero hmax).2]
      rfl
    · rfl

theorem loadDataPage_other (hlayout : page.isDirectIds maxDefLevel = false)
    (c' : ByteArrayDictionaryPageCursor) : c.loadDataPage maxDefLevel page pages ≠ .ok (some c') := by
  intro h
  unfold loadDataPage at h
  cases hencoded : page.isDictionaryEncoded with
  | false =>
    rw [if_pos (by rw [hencoded]; rfl)] at h
    cases h
  | true =>
    rw [if_neg (by rw [hencoded]; decide)] at h
    cases hdictionary : c.dictionary with
    | none =>
      rw [hdictionary] at h
      cases h
    | some entries =>
      rw [hdictionary] at h
      obtain ⟨read,hread,-⟩ := thenRead_eq_some h
      exact cursorLevels_other hlayout hencoded read hread

theorem loadNextDataPage_reads {dictionary : Option (List Bytes)}
    (hholds : ByteArrayColumnHolds maxDefLevel dictionary pages rows) (hne : rows ≠ []) :
    ∀ {c : ByteArrayDictionaryPageCursor}, c.dictionary = dictionary → (dictionary.getD []).length < 2 ^ 31 →
      (direct → DirectStrings maxDefLevel dictionary.isSome pages) →
      Reads direct (fun c' => StringsBefore direct maxDefLevel c' rows ∧ (direct → 0 < c'.availableRows))
        (loadNextDataPage maxDefLevel pages c) := by
  induction hholds with
  | nil => exact (hne rfl).elim
  | @dictionary before buf numValues encoding pages rows hsize hholds ih =>
    intro c hbefore hsmall hdirect
    rw [loadNextDataPage]
    split_ifs with hdecline
    · refine reads_none fun hd => ?_
      obtain ⟨hplain,hnone,-⟩ := hdirect hd
      rcases hdecline with hdecline | hdecline
      · exact hdecline hplain
      · rw [hbefore,hnone] at hdecline
        cases hdecline
    · exact ih hne rfl ((length_dictionary_le buf numValues).trans_lt hsize) fun hd => (hdirect hd).2.2
  | @data dictionary page pages first rest hpage hrest ih =>
    intro c hdictionary hsmall hdirect
    cases hpage with
    | @ids entries start levels w body ids hencoding hentries hlevels hdata hw hbody hids =>
      have hpage := (cursorLevels_spec hlevels).1
      rw [loadNextDataPage_data pages c hpage]
      subst hentries
      refine loadDataPage_ids hencoding hdictionary hlevels hdata hw hbody hids hsmall hrest fun hd => ?_
      exact ((directStrings_data hpage).mp (hdirect hd)).2.2
    | other hlayout hpage hrows =>
      rw [loadNextDataPage_data pages c hpage]
      refine reads_not_direct (fun hd => ?_) (loadDataPage_other hlayout)
      rw [((directStrings_data hpage).mp (hdirect hd)).2.1] at hlayout
      cases hlayout

theorem StringsBefore.ensurePage (h : StringsBefore direct maxDefLevel c rows) (hne : rows ≠ []) :
    Reads direct (fun c' => StringsBefore direct maxDefLevel c' rows ∧ (direct → 0 < c'.availableRows))
      (c.ensurePage maxDefLevel) := by
  unfold ByteArrayDictionaryPageCursor.ensurePage
  split_ifs with hrows
  · exact reads_some ⟨h,fun _ => hrows⟩
  obtain ⟨ids,later,honPage,hlater,heq⟩ := h.rows
  rw [availableRows_eq c maxDefLevel] at hrows
  rw [List.drop_of_length_le (by rw [length_rowIds]; omega)] at heq
  obtain rfl : rows = later := heq
  exact loadNextDataPage_reads hlater hne rfl honPage.small h.direct

variable {ids : List ℕ} {records : ℕ}

theorem OnPage.decode (h : OnPage maxDefLevel c ids) (hflags : c.flags maxDefLevel ≠ []) :
    c.ensureIdsDecoded = .ok { c with ids := ids.map asI32 } := by
  obtain ⟨entries,hentries⟩ := Option.isSome_iff_exists.mp (h.dictionary hflags)
  unfold ensureIdsDecoded
  have hvalues := h.values
  rcases h.decoded with hids | ⟨hids,w,body,hencoded,hw,hbody⟩
  · split_ifs with hdone
    · rw [← hids]
    · rw [not_or,not_not,hids,List.map_eq_nil_iff] at hdone
      rw [hdone.1] at hvalues
      exact (hdone.2 hvalues).elim
  · split_ifs with hdone
    · have hzero : c.encodedValues = 0 := hdone.resolve_left fun hne => hne hids
      have hnil : ids = [] := List.eq_nil_of_length_eq_zero (hvalues.symm.trans hzero)
      rw [hnil,List.map_nil,← hids]
    · have hknown := h.known
      have hsmall := h.small
      rw [hentries,Option.getD_some] at hknown hsmall
      have hdecode := decodeDictionaryIndices_eq hw hbody fun id hid => ⟨hknown id hid,(hknown id hid).trans hsmall⟩
      rw [hentries,hencoded]
      dsimp only
      rw [hvalues,hids,hdecode]
      rfl

/-- The next rows of a page: which of them have a string, and their ids. -/
def windowFlags (maxDefLevel : ℕ) (c : ByteArrayDictionaryPageCursor) (records : ℕ) : List Bool :=
  slice (c.flags maxDefLevel) c.rowOffset (c.rowOffset + records)

def windowIds (maxDefLevel : ℕ) (c : ByteArrayDictionaryPageCursor) (records : ℕ) (ids : List ℕ) : List ℕ :=
  slice ids c.idOffset (c.idOffset + (windowFlags maxDefLevel c records).count true)

theorem OnPage.idOffset_add (h : OnPage maxDefLevel c ids) (records : ℕ) :
    c.idOffset + (windowFlags maxDefLevel c records).count true =
        ((c.flags maxDefLevel).take (c.rowOffset + records)).count true ∧
      c.idOffset + (windowFlags maxDefLevel c records).count true ≤ ids.length := by
  have hcount : c.idOffset + (windowFlags maxDefLevel c records).count true =
      ((c.flags maxDefLevel).take (c.rowOffset + records)).count true := by
    rw [h.idOffset,windowFlags,← List.count_append,← take_eq_take_append_slice (Nat.le_add_right ..)]
  rw [hcount,← h.count]
  exact ⟨rfl,(List.take_sublist ..).count_le true⟩

theorem OnPage.take_rows (h : OnPage maxDefLevel c ids) (records : ℕ) :
    ((rowIds (c.flags maxDefLevel) ids).drop c.rowOffset).take records =
      rowIds (windowFlags maxDefLevel c records) (windowIds maxDefLevel c records ids) := by
  have hslice := rowIds_slice (c.flags maxDefLevel) ids c.rowOffset (c.rowOffset + records)
  rw [← h.idOffset,slice,Nat.add_sub_cancel_left] at hslice
  rw [windowIds,slice,Nat.add_sub_cancel_left,rowIds_take_count]
  exact hslice

/-- The levels that a window is handed with, if the column has them. -/
def WindowLevels (maxDefLevel records : ℕ) (flags : List Bool) : Option (List ℤ) → Prop
  | none => flags = List.replicate records true
  | some levels => flags = presentFlags maxDefLevel levels

theorem OnPage.window {entries : List Bytes} (h : OnPage maxDefLevel c ids) (hdictionary : c.dictionary = some entries)
    (hrecords : c.rowOffset + records ≤ (c.flags maxDefLevel).length) :
    ∃ levels, WindowLevels maxDefLevel records (windowFlags maxDefLevel c records) levels ∧
      window maxDefLevel { c with ids := ids.map asI32 } records =
        some (levels,(windowIds maxDefLevel c records ids).map asI32,entries) := by
  obtain ⟨-,hids⟩ := h.idOffset_add records
  have hvalues := h.values
  have hoffset := h.idOffset
  unfold ByteArrayDictionaryPageCursor.window
  rw [hdictionary]
  dsimp only
  by_cases hlevels : c.defLevels = []
  · have hflags : c.flags maxDefLevel = List.replicate c.encodedValues true := if_pos hlevels
    have hwindow : windowFlags maxDefLevel c records = List.replicate records true := by
      rw [hflags,List.length_replicate] at hrecords
      rw [windowFlags,hflags,slice,List.drop_replicate,List.take_replicate]
      congr 1
      omega
    rw [hflags,List.take_replicate,List.count_replicate_self] at hoffset
    rw [hflags,List.length_replicate] at hrecords
    rw [if_pos hlevels,if_neg (by rw [List.length_map]; omega)]
    refine ⟨none,hwindow,?_⟩
    rw [windowIds,hwindow,List.count_replicate_self,slice_map]
    congr 5
    · omega
    · omega
  · have hflags : c.flags maxDefLevel = presentFlags maxDefLevel c.defLevels := if_neg hlevels
    have hwindow : windowFlags maxDefLevel c records =
        presentFlags maxDefLevel (slice c.defLevels c.rowOffset (c.rowOffset + records)) := by
      rw [windowFlags,hflags,presentFlags,presentFlags,slice_map]
    rw [hflags,presentFlags,List.length_map] at hrecords
    rw [windowIds,hwindow,count_presentFlags]
    rw [hwindow,count_presentFlags] at hids
    rw [if_neg hlevels,if_neg (by omega),if_neg (by rw [List.length_map]; omega),slice_map]
    exact ⟨some _,rfl,rfl⟩

/-- A window of rows: their levels, which of them have a string, and their ids in the dictionary. -/
structure WindowHolds (maxDefLevel : ℕ) (rows : List (Option Bytes)) (levels : Option (List ℤ)) (flags : List Bool)
    (ids : List ℕ) (entries : List Bytes) : Prop where
  levels : WindowLevels maxDefLevel rows.length flags levels
  length : flags.length = rows.length
  count : flags.count true = ids.length
  known : ∀ id ∈ ids, id < entries.length ∧ id < 2 ^ 31
  rows : rows = (rowIds flags ids).map (stringOf (some entries))

theorem OnPage.move (h : OnPage maxDefLevel c ids) (hrecords : c.rowOffset + records ≤ (c.flags maxDefLevel).length) :
    OnPage maxDefLevel { c with
      ids := ids.map asI32
      rowOffset := c.rowOffset + records
      idOffset := c.idOffset + (windowFlags maxDefLevel c records).count true } ids :=
  ⟨h.count,h.values,hrecords,(h.idOffset_add records).1,h.known,h.dictionary,h.small,.inl rfl⟩

theorem OnPage.clear (h : OnPage maxDefLevel c ids) : OnPage maxDefLevel c.clearPage [] :=
  ⟨rfl,rfl,le_rfl,rfl,by simp,fun hne => (hne rfl).elim,h.small,.inl rfl⟩

theorem advance_eq (ids : List ℕ) (hrecords : c.rowOffset + records ≤ (c.flags maxDefLevel).length) :
    advance maxDefLevel { c with ids := ids.map asI32 } records =
      if (c.flags maxDefLevel).length ≤ c.rowOffset + records then c.clearPage
      else { c with
        ids := ids.map asI32
        rowOffset := c.rowOffset + records
        idOffset := c.idOffset + (windowFlags maxDefLevel c records).count true } := by
  unfold advance
  by_cases hlevels : c.defLevels = []
  · have hflags : c.flags maxDefLevel = List.replicate c.encodedValues true := if_pos hlevels
    have hcount : (windowFlags maxDefLevel c records).count true = records := by
      rw [hflags,List.length_replicate] at hrecords
      rw [windowFlags,hflags,slice,List.drop_replicate,List.take_replicate,List.count_replicate_self]
      omega
    rw [if_pos hlevels,hcount,hflags,List.length_replicate]
    rfl
  · have hflags : c.flags maxDefLevel = presentFlags maxDefLevel c.defLevels := if_neg hlevels
    have hlength : (c.flags maxDefLevel).length = c.defLevels.length := by rw [hflags,presentFlags,List.length_map]
    have hcount : (windowFlags maxDefLevel c records).count true =
        (slice c.defLevels c.rowOffset (c.rowOffset + records)).count (maxDefLevel : ℤ) := by
      rw [windowFlags,hflags,presentFlags,slice_map,← presentFlags,count_presentFlags]
    rw [hlength] at hrecords ⊢
    rw [if_neg hlevels,Nat.min_eq_left hrecords,hcount]
    rfl

/-- The next rows of the page are read, and the cursor is moved behind them. -/
theorem StringsBefore.current (h : StringsBefore direct maxDefLevel c rows) (hpos : 0 < records)
    (hrecords : records ≤ c.availableRows) :
    ∃ c' levels flags ids entries, c.current maxDefLevel records = .ok (some (c',levels,ids.map asI32,entries)) ∧
      WindowHolds maxDefLevel (rows.take records) levels flags ids entries ∧
      StringsBefore direct maxDefLevel (c'.advance maxDefLevel records) (rows.drop records) := by
  obtain ⟨ids,later,honPage,hlater,rfl⟩ := h.rows
  rw [availableRows_eq c maxDefLevel] at hrecords
  have hend : c.rowOffset + records ≤ (c.flags maxDefLevel).length := by omega
  have hne : c.flags maxDefLevel ≠ [] := by
    intro hnil
    rw [hnil,List.length_nil] at hend
    omega
  obtain ⟨entries,hentries⟩ := Option.isSome_iff_exists.mp (honPage.dictionary hne)
  obtain ⟨levels,hlevels,hwindow⟩ := honPage.window hentries hend
  have hlength : (windowFlags maxDefLevel c records).length = records := by
    rw [windowFlags,length_slice hend,Nat.add_sub_cancel_left]
  have hids : (windowIds maxDefLevel c records ids).length = (windowFlags maxDefLevel c records).count true := by
    rw [windowIds,length_slice (honPage.idOffset_add records).2,Nat.add_sub_cancel_left]
  have hpage : records ≤ (((rowIds (c.flags maxDefLevel) ids).drop c.rowOffset).map (stringOf c.dictionary)).length := by
    rw [List.length_map,List.length_drop,length_rowIds]
    omega
  have htake : ((((rowIds (c.flags maxDefLevel) ids).drop c.rowOffset).map (stringOf c.dictionary)) ++ later).take records =
      (rowIds (windowFlags maxDefLevel c records) (windowIds maxDefLevel c records ids)).map (stringOf (some entries)) := by
    rw [List.take_append_of_le_length hpage,← List.map_take,honPage.take_rows,hentries]
  refine ⟨{ c with ids := ids.map asI32 },levels,windowFlags maxDefLevel c records,windowIds maxDefLevel c records ids,entries,
    ?_,⟨?_,?_,hids.symm,fun id hid => ?_,htake⟩,?_⟩
  · unfold current
    rw [if_neg (by rw [availableRows_eq c maxDefLevel]; omega),honPage.decode hne]
    change Except.ok (Option.map _ _) = _
    rw [hwindow]
    rfl
  · rwa [htake,List.length_map,length_rowIds,hlength]
  · rw [htake,List.length_map,length_rowIds]
  · have hmem : id ∈ ids := List.mem_of_mem_drop (List.mem_of_mem_take hid)
    have hknown := honPage.known id hmem
    have hsmall := honPage.small
    rw [hentries,Option.getD_some] at hknown hsmall
    exact ⟨hknown,hknown.trans hsmall⟩
  · rw [advance_eq ids hend,List.drop_append_of_le_length hpage,← List.map_drop,List.drop_drop]
    split_ifs with hclear
    · rw [List.drop_of_length_le (by rw [length_rowIds]; exact hclear)]
      exact ⟨⟨[],later,honPage.clear,hlater,rfl⟩,h.direct⟩
    · exact ⟨⟨ids,later,honPage.move hend,hlater,rfl⟩,h.direct⟩

end Strings
section Select
variable (predicate : ℤ → Bool) {maxDefLevel : ℕ}

/-- The rows that the page reader hands on: those without a string are left out. -/
def pageReaderRows (rows : List (ℤ × Option Bytes)) : List (ℤ × Option Bytes) :=
  rows.filter fun row => predicate row.1 && row.2.isSome

def chosen (row : ℤ × Option ℤ) : Option (ℤ × ℤ) :=
  row.2.bind fun id => if predicate row.1 then some (row.1,id) else none

theorem selectPresentRows_eq {numbers levels ids : List ℤ} (hlength : numbers.length = levels.length)
    (hcount : (presentFlags maxDefLevel levels).count true = ids.length) :
    selectPresentRows predicate maxDefLevel numbers levels ids =
      some ((numbers.zip (rowIds (presentFlags maxDefLevel levels) ids)).filterMap (chosen predicate)).unzip := by
  induction numbers generalizing levels ids with
  | nil =>
    obtain rfl := List.eq_nil_of_length_eq_zero hlength.symm
    obtain rfl := List.eq_nil_of_length_eq_zero hcount.symm
    rfl
  | cons number numbers ih =>
    obtain ⟨level,levels,rfl⟩ := List.exists_cons_of_length_eq_add_one hlength.symm
    have hrest := Nat.succ.inj hlength
    unfold selectPresentRows
    by_cases hlevel : level = maxDefLevel
    · have hflags : presentFlags maxDefLevel (level :: levels) = true :: presentFlags maxDefLevel levels := by
        rw [presentFlags,List.map_cons,hlevel,beq_self_eq_true]
        rfl
      rw [hflags,List.count_cons_self] at hcount
      obtain ⟨id,ids,rfl⟩ := List.exists_cons_of_length_eq_add_one hcount.symm
      rw [if_pos hlevel,hflags]
      dsimp only
      rw [ih hrest (Nat.succ.inj hcount),rowIds,List.zip_cons_cons,List.filterMap_cons]
      by_cases hpredicate : predicate number
      · simp [chosen,hpredicate]
      · simp [chosen,hpredicate]
    · have hflags : presentFlags maxDefLevel (level :: levels) = false :: presentFlags maxDefLevel levels := by
        rw [presentFlags,List.map_cons,beq_eq_false_iff_ne.mpr hlevel]
        rfl
      rw [hflags,List.count_cons_of_ne Bool.false_ne_true] at hcount
      rw [if_neg hlevel,hflags,ih hrest hcount]
      rfl

theorem selectWindow_eq {numbers ids : List ℤ} {levels : Option (List ℤ)} {flags : List Bool}
    (hlevels : WindowLevels maxDefLevel numbers.length flags levels) (hlength : flags.length = numbers.length)
    (hcount : flags.count true = ids.length) :
    selectWindow predicate maxDefLevel numbers levels ids =
      some ((numbers.zip (rowIds flags ids)).filterMap (chosen predicate)).unzip := by
  cases levels with
  | some levels =>
    obtain rfl : flags = presentFlags maxDefLevel levels := hlevels
    rw [presentFlags,List.length_map] at hlength
    exact selectPresentRows_eq predicate hlength.symm hcount
  | none =>
    obtain rfl : flags = List.replicate numbers.length true := hlevels
    rw [List.count_replicate_self] at hcount
    have hchosen : chosen predicate ∘ Prod.map id some = fun row => if predicate row.1 then some row else none := rfl
    have hguard : (fun row : ℤ × ℤ => if predicate row.1 then some row else none) =
        Option.guard fun row => predicate row.1 := rfl
    rw [selectWindow,if_neg (by omega),hcount,rowIds_replicate,List.zip_map_right,List.filterMap_map,hchosen,hguard,
      List.filterMap_eq_filter]

theorem mem_of_mem_rowIds {flags : List Bool} {ids : List ℕ} {id : ℕ} (h : some id ∈ rowIds flags ids) : id ∈ ids := by
  induction flags generalizing ids with
  | nil => cases h
  | cons flag flags ih =>
    cases flag with
    | false =>
      rcases List.mem_cons.mp h with h | h
      · cases h
      · exact ih h
    | true =>
      rcases List.mem_cons.mp h with h | h
      · exact List.mem_of_mem_head? h.symm
      · exact List.mem_of_mem_tail (ih h)

theorem chosen_rows {entries : List Bytes} {numbers : List ℤ} {ids : List (Option ℕ)}
    (hids : ∀ id, some id ∈ ids → id < entries.length ∧ id < 2 ^ 31) :
    ((numbers.zip (ids.map (Option.map asI32))).filterMap (chosen predicate)).map (fun row => (row.1,entries[row.2.toNat]?)) =
      pageReaderRows predicate (numbers.zip (ids.map (stringOf (some entries)))) := by
  induction numbers generalizing ids with
  | nil => rfl
  | cons number numbers ih =>
    cases ids with
    | nil => rfl
    | cons id ids =>
      have hrest := @ih ids fun id hid => hids id (List.mem_cons_of_mem _ hid)
      rw [pageReaderRows] at hrest ⊢
      rw [List.map_cons,List.map_cons,List.zip_cons_cons,List.zip_cons_cons,List.filterMap_cons,List.filter_cons,← hrest]
      cases id with
      | none => simp [chosen,stringOf]
      | some id =>
        obtain ⟨hlt,hsmall⟩ := hids id List.mem_cons_self
        have hvalue : (asI32 id).toNat = id := by rw [asI32_of_lt hsmall,Int.toNat_natCast]
        by_cases hpredicate : predicate number
        · simp [chosen,stringOf,hpredicate,hvalue,hlt]
        · simp [chosen,hpredicate]

end Select
section Scan
variable (predicate : ℤ → Bool) {direct : Prop} {maxDefLevel rowCount : ℕ} {s : PageScan} {rows : List (ℤ × Option Bytes)}

theorem deliveredRows_append (calls calls' : List SelectedCall) :
    deliveredRows (calls ++ calls') = deliveredRows calls ++ deliveredRows calls' := List.flatMap_append

structure PageScan.Before (direct : Prop) (maxDefLevel rowCount : ℕ) (s : PageScan) (rows : List (ℤ × Option Bytes)) : Prop where
  numbers : NumbersBefore direct s.numbers (rows.map Prod.fst)
  strings : StringsBefore direct maxDefLevel s.strings (rows.map Prod.snd)
  rowsRead : s.rowsRead + rows.length = rowCount

theorem deliveredRows_window {numbers : List ℤ} {strings : List (Option Bytes)} {levels : Option (List ℤ)} {flags : List Bool}
    {ids : List ℕ} {entries : List Bytes} (hwindow : WindowHolds maxDefLevel strings levels flags ids entries)
    (hlength : numbers.length = strings.length) (calls : List SelectedCall) :
    ∃ selected selectedIds, selectWindow predicate maxDefLevel numbers levels (ids.map asI32) = some (selected,selectedIds) ∧
      deliveredRows (if selected = [] then calls else calls ++ [(selected,selectedIds,entries)]) =
        deliveredRows calls ++ pageReaderRows predicate (numbers.zip strings) := by
  have hselect := @selectWindow_eq predicate maxDefLevel numbers (ids.map asI32) levels flags
    (hlength ▸ hwindow.levels) (hwindow.length.trans hlength.symm) (by rw [List.length_map]; exact hwindow.count)
  have hrows := @chosen_rows predicate entries numbers (rowIds flags ids) fun id hid => hwindow.known id (mem_of_mem_rowIds hid)
  rw [rowIds_map] at hselect
  rw [← hwindow.rows] at hrows
  refine ⟨_,_,hselect,?_⟩
  rw [← hrows]
  generalize ((numbers.zip ((rowIds flags ids).map (Option.map asI32))).filterMap (chosen predicate)) = pairs
  cases pairs with
  | nil => simp
  | cons pair pairs =>
    have hzip := List.zip_unzip (pair :: pairs)
    rw [if_neg (by simp),deliveredRows_append]
    congr 1
    rw [deliveredRows,List.flatMap_singleton]
    dsimp only
    rw [List.zip_map_right,hzip]
    rfl

/-- A window takes some rows, and hands on the selected ones that have a string. -/
theorem PageScan.Before.readWindow (h : s.Before direct maxDefLevel rowCount rows) (hne : rows ≠ []) :
    Reads direct (fun s' => ∃ records, 0 < records ∧ s'.Before direct maxDefLevel rowCount (rows.drop records) ∧
        deliveredRows s'.calls = deliveredRows s.calls ++ pageReaderRows predicate (rows.take records))
      (readWindow predicate maxDefLevel rowCount s) := by
  have hnumbers := h.numbers.ensurePage (by simpa using hne)
  have hstrings := h.strings.ensurePage (by simpa using hne)
  refine hnumbers.both hstrings fun numbers strings ⟨hnumbers,hnumbersPos⟩ ⟨hstrings,hstringsPos⟩ => ?_
  have hcount := h.rowsRead
  have hpos := List.length_pos_of_ne_nil hne
  dsimp only
  split_ifs with hzero
  · refine reads_none fun hd => ?_
    have hnumbersPos := hnumbersPos hd
    have hstringsPos := hstringsPos hd
    omega
  generalize hrecords : min (rowCount - s.rowsRead) (min numbers.rowsRemaining strings.availableRows) = records at *
  have hremaining : records ≤ numbers.rowsRemaining := by omega
  obtain ⟨bytes,hbytes,hlength,hints⟩ := hnumbers.rawBytes hremaining
  obtain ⟨strings',levels,flags,ids,entries,hcurrent,hwindow,hbehind⟩ :=
    hstrings.current (Nat.pos_of_ne_zero hzero) (show records ≤ strings.availableRows by omega)
  rw [hbytes]
  dsimp only
  rw [if_neg (by omega),hcurrent,thenRead_some,hints]
  have hwidth : ((rows.map Prod.fst).take records).length = ((rows.map Prod.snd).take records).length := by
    rw [List.length_take,List.length_take,List.length_map,List.length_map]
  obtain ⟨selected,selectedIds,hselect,hdelivered⟩ := deliveredRows_window predicate hwindow hwidth s.calls
  rw [hselect]
  refine reads_some ⟨records,Nat.pos_of_ne_zero hzero,⟨?_,?_,?_⟩,?_⟩
  · rw [List.map_drop]
    exact hnumbers.advance hremaining
  · rw [List.map_drop]
    exact hbehind
  · rw [List.length_drop]
    change s.rowsRead + records + (rows.length - records) = rowCount
    omega
  · refine hdelivered.trans ?_
    rw [← List.map_take,← List.map_take,← List.unzip_fst,← List.unzip_snd,List.zip_unzip]

theorem PageScan.Before.readWindows {fuel : ℕ} (h : s.Before direct maxDefLevel rowCount rows) (hfuel : rows.length ≤ fuel) :
    Reads direct (fun s' => deliveredRows s'.calls = deliveredRows s.calls ++ pageReaderRows predicate rows)
      (readWindows predicate maxDefLevel rowCount fuel s) := by
  induction fuel generalizing s rows with
  | zero =>
    obtain rfl := List.eq_nil_of_length_eq_zero (Nat.le_zero.mp hfuel)
    exact reads_some (List.append_nil _).symm
  | succ fuel ih =>
    rw [Storage.readWindows]
    have hcount := h.rowsRead
    split_ifs with hmore
    · have hne : rows ≠ [] := by
        rintro rfl
        rw [List.length_nil] at hcount
        omega
      refine (h.readWindow predicate hne).thenRead fun s' ⟨records,hpos,hbefore,hdelivered⟩ => ?_
      have hrest := ih hbefore (by rw [List.length_drop]; omega)
      have hrows : pageReaderRows predicate rows =
          pageReaderRows predicate (rows.take records) ++ pageReaderRows predicate (rows.drop records) := by
        rw [pageReaderRows,pageReaderRows,pageReaderRows,← List.filter_append,List.take_append_drop]
      rw [hdelivered,List.append_assoc,← hrows] at hrest
      exact hrest
    · obtain rfl : rows = [] := List.eq_nil_of_length_eq_zero (by omega)
      exact reads_some (List.append_nil _).symm

end Scan
end Dodam.Storage
