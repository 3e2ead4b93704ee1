import Dodam.Storage.RleDecoder
import Dodam.Storage.SelectedPages

/-! # Pages of a column chunk

The pages that a page reader gives out, as bytes with the fields of their headers,
and the decoding of definition levels and of plain integers.
-/
namespace Dodam.Storage
open Foundation Execution

inductive Encoding
  | plain
  | rle
  | plainDictionary
  | rleDictionary
  | other
deriving DecidableEq

inductive ColumnPage
  | dictionary (buf : List UInt8) (numValues : ℕ) (encoding : Encoding)
  | data (buf : List UInt8) (numValues : ℕ) (encoding defLevelEncoding : Encoding)
  | dataV2 (buf : List UInt8) (numValues : ℕ) (encoding : Encoding) (numNulls defLevelsByteLen repLevelsByteLen : ℕ)

namespace ColumnPage

def rows : ColumnPage → ℕ
  | dictionary .. => 0
  | data _ numValues .. => numValues
  | dataV2 _ numValues .. => numValues

def encoding : ColumnPage → Encoding
  | dictionary _ _ encoding => encoding
  | data _ _ encoding _ => encoding
  | dataV2 _ _ encoding .. => encoding

def buf : ColumnPage → List UInt8
  | dictionary buf .. => buf
  | data buf .. => buf
  | dataV2 buf .. => buf

end ColumnPage

def rowsAfter (start : ℕ) (pages : List ColumnPage) : ℕ := start + (pages.map ColumnPage.rows).sum

@[simp] theorem rowsAfter_nil (start : ℕ) : rowsAfter start [] = start := by simp [rowsAfter]

@[simp] theorem rowsAfter_cons (start : ℕ) (page : ColumnPage) (pages : List ColumnPage) :
    rowsAfter start (page :: pages) = rowsAfter (start + page.rows) pages := by
  simp [rowsAfter,Nat.add_assoc]

/-- The length and the bytes of the levels before the values of a page. -/
def parseV1RleLevelData (buf : List UInt8) : Result (ℕ × List UInt8) :=
  if buf.length < 4 then parquetGeneral "not enough data to read parquet v1 level length"
  else
    let len := leNat (buf.take 4)
    if buf.length < 4 + len then parquetGeneral "not enough data to read parquet v1 level data"
    else .ok (4 + len,(buf.drop 4).take len)

def nextLevels : ℕ → SimpleRleBitpackedDecoder → List ℤ → Result (List ℤ)
  | 0, _, output => .ok output
  | n + 1, d, output => d.nextValue.bind fun
    | (none,_) => .ok output
    | (some value,d) => nextLevels n d (output ++ [wrapSigned 16 value])

def decodeRleI16Values (data : List UInt8) (bitWidth values : ℕ) (output : List ℤ) : Result (List ℤ) :=
  if 16 < bitWidth then .ok output
  else nextLevels values (.new data bitWidth) output

/-- `num_required_bits_i16` -/
def numRequiredBits (value : ℕ) : ℕ := value.size

/-- The little-endian integer of `size` bytes at a position. -/
def plainInt (size : ℕ) (buf : List UInt8) (pos : ℕ) : ℤ := wrapSigned (8 * size) (leNat ((buf.drop pos).take size))

/-- The integers of `size` bytes each from a position on. -/
def plainInts (size : ℕ) (buf : List UInt8) (pos rows : ℕ) : List ℤ :=
  (List.range rows).map fun row => plainInt size buf (pos + row * size)

@[simp] theorem length_plainInts (size : ℕ) (buf : List UInt8) (pos rows : ℕ) : (plainInts size buf pos rows).length = rows := by
  simp [plainInts]

theorem slice_plainInts (size : ℕ) (buf : List UInt8) (pos : ℕ) {rows a n : ℕ} (h : a + n ≤ rows) :
    ((plainInts size buf pos rows).drop a).take n = plainInts size buf (pos + a * size) n := by
  apply List.ext_getElem
  · simp
    omega
  · intro i hi _
    simp only [plainInts,List.getElem_take,List.getElem_drop,List.getElem_map,List.getElem_range]
    congr 1
    ring

end Dodam.Storage

/-! ## The cursor into the selected runs

A page loop keeps a cursor into the sorted runs. The runs that the cursor has
passed end before the next page, so the first run that is left tells whether any
run overlaps the page.
-/
namespace Dodam.Storage
open Foundation

variable {runs cursor : List (ℕ × ℕ)} {row row' stop : ℕ}

/-- The cursor is a rest of the runs, and the runs before it end at the row. -/
def CursorPassed (runs cursor : List (ℕ × ℕ)) (row : ℕ) : Prop :=
  ∃ passed, runs = passed ++ cursor ∧ ∀ r ∈ passed, r.1 + r.2 ≤ row

def Overlaps (runs : List (ℕ × ℕ)) (row stop : ℕ) : Prop := ∃ r ∈ runs, r.1 < stop ∧ row < r.1 + r.2

theorem cursorPassed_start (runs : List (ℕ × ℕ)) (row : ℕ) : CursorPassed runs runs row := ⟨[],by simp,by simp⟩

theorem CursorPassed.advance (h : CursorPassed runs cursor row) (hle : row ≤ row') :
    CursorPassed runs (advanceRunCursor cursor row) row' := by
  obtain ⟨passed,hpassed,hend⟩ := h
  refine ⟨passed ++ cursor.takeWhile fun r => r.1 + r.2 ≤ row,?_,fun r hr => ?_⟩
  · rw [List.append_assoc,advanceRunCursor,List.takeWhile_append_dropWhile,hpassed]
  · rcases List.mem_append.mp hr with hr | hr
    · exact (hend r hr).trans hle
    · have hrow : r.1 + r.2 ≤ row := by simpa using List.mem_takeWhile_imp hr
      exact hrow.trans hle

theorem advanceRunCursor_head {r : ℕ × ℕ} {left : List (ℕ × ℕ)} (h : advanceRunCursor cursor row = r :: left) :
    row < r.1 + r.2 := by
  have hhead := List.head?_dropWhile_not (fun r : ℕ × ℕ => decide (r.1 + r.2 ≤ row)) cursor
  rw [show cursor.dropWhile (fun r : ℕ × ℕ => decide (r.1 + r.2 ≤ row)) = r :: left from h] at hhead
  simpa using hhead

theorem CursorPassed.overlap_iff (h : CursorPassed runs cursor row) (hsorted : runs.Pairwise fun r s => r.1 + r.2 ≤ s.1) :
    runsOverlapFrom (advanceRunCursor cursor row) row stop = true ↔ Overlaps runs row stop := by
  obtain ⟨passed,hpassed,hend⟩ := h.advance le_rfl
  have hnot : ∀ r ∈ passed, ¬row < r.1 + r.2 := fun r hr => Nat.not_lt.mpr (hend r hr)
  rw [hpassed] at hsorted
  have hleft := (List.pairwise_append.mp hsorted).2.1
  cases hcursor : advanceRunCursor cursor row with
  | nil =>
    rw [hcursor,List.append_nil] at hpassed
    constructor
    · intro hoverlap
      simp [runsOverlapFrom] at hoverlap
    · rintro ⟨r,hr,_,hlt⟩
      exact absurd hlt (hnot r (hpassed ▸ hr))
  | cons first left =>
    have hfirst := advanceRunCursor_head hcursor
    rw [hcursor] at hpassed hleft
    simp only [runsOverlapFrom,Bool.and_eq_true,decide_eq_true_iff]
    constructor
    · rintro ⟨hstop,hrow⟩
      exact ⟨first,by simp [hpassed],hstop,hrow⟩
    · rintro ⟨r,hr,hstop,hlt⟩
      rw [hpassed] at hr
      rcases List.mem_append.mp hr with hr | hr
      · exact absurd hlt (hnot r hr)
      · rcases List.mem_cons.mp hr with rfl | hr
        · exact ⟨hstop,hlt⟩
        · have := (List.pairwise_cons.mp hleft).1 r hr
          exact ⟨by omega,hfirst⟩

variable {p : ℕ → Prop}

theorem not_selected_of_not_overlaps (hruns : Marks p runs) (h : ¬Overlaps runs row stop) {i : ℕ}
    (hrow : row ≤ i) (hstop : i < stop) : ¬p i := by
  intro hp
  obtain ⟨r,hr,hle,hlt⟩ := (hruns.covers i).mp hp
  exact h ⟨r,hr,by omega,by omega⟩

theorem exists_selected_of_overlaps (hruns : Marks p runs) (h : Overlaps runs row stop) (hlt : row < stop) :
    ∃ i, row ≤ i ∧ i < stop ∧ p i := by
  obtain ⟨r,hr,hstop,hrow⟩ := h
  have hpos := hruns.nonempty r hr
  exact ⟨max row r.1,by omega,by omega,(hruns.covers _).mpr ⟨r,hr,by omega,by omega⟩⟩

theorem CursorPassed.marks (h : CursorPassed runs cursor row) (hruns : Marks p runs) :
    Marks (fun i => inIntervals cursor i = true) cursor ∧ ∀ i, row ≤ i → (inIntervals cursor i = true ↔ p i) := by
  obtain ⟨passed,rfl,hend⟩ := h
  refine ⟨marks_inIntervals (fun r hr => hruns.nonempty r (List.mem_append_right _ hr))
    (List.pairwise_append.mp hruns.sorted).2.1,fun i hi => ?_⟩
  simp only [hruns.covers,inIntervals,List.any_eq_true,Bool.and_eq_true,decide_eq_true_iff]
  constructor
  · rintro ⟨r,hr,hin⟩
    exact ⟨r,List.mem_append_right _ hr,hin⟩
  · rintro ⟨r,hr,hle,hlt⟩
    rcases List.mem_append.mp hr with hr | hr
    · have := hend r hr
      omega
    · exact ⟨r,hr,hle,hlt⟩

theorem CursorPassed.selectAt_eq {α : Type*} [DecidablePred p] (h : CursorPassed runs cursor row) (hruns : Marks p runs) (l : List α) :
    selectAt p row l = selectAt (fun i => inIntervals cursor i = true) row l :=
  selectAt_congr fun i hi _ => ((h.marks hruns).2 i hi).symm

end Dodam.Storage
