import Dodam.Storage.PageIds
import Dodam.Storage.SelectedPages

/-! # Selected ids of an encoded dictionary page

The ids of the rows in the selected runs are decoded from the bytes of a page: row by row, block
by block for pages with many selected rows, or along the definition levels when rows may be
NULL.
-/
namespace Dodam.Storage.Encoded
open Foundation Execution

def decodeRleI32Values (data : List UInt8) (bitWidth values : ℕ) (output : List ℤ) : Result (List ℤ) :=
  if 32 < bitWidth then .ok output
  else ((SimpleRleBitpackedDecoder.new data bitWidth).decodeI32Batch values output).map fun decoded => decoded.2.1

def decodeDictionaryIndices (data : List UInt8) (values dictionaryLen : ℕ) (output : List ℤ) : Result (List ℤ) :=
  match data with
  | [] => .ok output
  | bitWidth :: body =>
    (decodeRleI32Values body bitWidth.toNat values output).bind fun decoded =>
      if decoded.length ≠ output.length + values ∨
          (decoded.drop output.length).any fun id => id < 0 || dictionaryLen ≤ id.toNat then
        unsupportedSql "dictionary id is out of range"
      else .ok decoded

/-- Ids one by one; the flag is false when the decoding ends at a missing id or at one behind the
dictionary. -/
def nextIds (dictionaryLen : ℕ) : ℕ → SimpleRleBitpackedDecoder → List ℤ →
    Result (Bool × List ℤ × SimpleRleBitpackedDecoder)
  | 0, d, output => .ok (true,output,d)
  | n + 1, d, output => d.nextValue.bind fun
    | (none,d) => .ok (false,output,d)
    | (some value,d) =>
      if dictionaryLen ≤ value then .ok (false,output,d) else nextIds dictionaryLen n d (output ++ [asI32 value])

section Window
variable (values dictionaryLen pageRowStart pageRows : ℕ)

def selectedRanges : List (ℕ × ℕ) → ℕ → SimpleRleBitpackedDecoder → List ℤ → Result (List ℤ)
  | [], _, _, output => .ok output
  | (runStart,runLen) :: runs, cursor, d, output =>
    if pageRowStart + pageRows ≤ runStart then .ok output
    else
      let start := max runStart pageRowStart
      let stop := min (runStart + runLen) (pageRowStart + pageRows)
      if stop ≤ start then selectedRanges runs cursor d output
      else
        let localStart := start - pageRowStart
        let localEnd := stop - pageRowStart
        if values < localStart ∨ values < localEnd ∨ localStart < cursor then .ok output
        else (d.skipValues (localStart - cursor)).bind fun d =>
          (nextIds dictionaryLen (localEnd - localStart) d output).bind fun
            | (false,output,_) => .ok output
            | (true,output,d) => selectedRanges runs localEnd d output

def decodeDictionaryIndicesSelectedRanges (data : List UInt8) (runs : List (ℕ × ℕ)) (output : List ℤ) : Result (List ℤ) :=
  match data with
  | [] => .ok output
  | bitWidth :: body =>
    if 32 < bitWidth.toNat then .ok output
    else selectedRanges values dictionaryLen pageRowStart pageRows runs 0 (.new body bitWidth.toNat) output

end Window

section Blocks

/-- The parts of the runs inside a block; a run that reaches beyond it is left for the next one. -/
def rangesInBlock (emit : ℕ → ℕ → Result (List ℤ)) (blockStart blockEnd : ℕ) :
    List (ℕ × ℕ) → List ℤ → Result (List (ℕ × ℕ) × List ℤ)
  | [], output => .ok ([],output)
  | (runStart,runLen) :: runs, output =>
    if blockEnd ≤ runStart then .ok ((runStart,runLen) :: runs,output)
    else
      let start := max runStart blockStart
      let stop := min (runStart + runLen) blockEnd
      (emit start stop).bind fun ids =>
        if blockEnd < runStart + runLen then .ok ((runStart,runLen) :: runs,output ++ ids)
        else rangesInBlock emit blockStart blockEnd runs (output ++ ids)

def appendRepeatedIdForSelectedRanges (id : ℤ) (blockRowStart blockRows : ℕ) (cursor : List (ℕ × ℕ)) (output : List ℤ) :
    Result (List (ℕ × ℕ) × List ℤ) :=
  rangesInBlock (fun start stop => .ok (List.replicate (stop - start) id)) blockRowStart (blockRowStart + blockRows)
    (advanceRunCursor cursor blockRowStart) output

def checkedDictionaryIdI32 (id dictionaryLen : ℕ) : Result ℤ :=
  if dictionaryLen ≤ id then invalidDictionaryIdError
  else if id < 2 ^ 31 then .ok id
  else invalidDictionaryIdError

def appendIdBlockForSelectedRanges (ids : List ℕ) (dictionaryLen blockRowStart : ℕ) (cursor : List (ℕ × ℕ))
    (output : List ℤ) : Result (List (ℕ × ℕ) × List ℤ) :=
  rangesInBlock
    (fun start stop => (slice ids (start - blockRowStart) (stop - blockRowStart)).mapM (checkedDictionaryIdI32 · dictionaryLen))
    blockRowStart (blockRowStart + ids.length) (advanceRunCursor cursor blockRowStart) output

/-- The blocks of a bit-packed run, from some row on. -/
def idBlocks (dictionaryLen : ℕ) : ℕ → ℕ → ℕ → BitpackedDictionaryIdBlockReader → List (ℕ × ℕ) → List ℤ →
    Result (List (ℕ × ℕ) × List ℤ)
  | 0, _, _, _, cursor, output => .ok (cursor,output)
  | fuel + 1, count, row, reader, cursor, output =>
    if count = 0 then .ok (cursor,output)
    else
      let blockLen := min dictionaryIdBlock count
      (reader.decodeBlock blockLen).bind fun (ids,reader) =>
        (appendIdBlockForSelectedRanges ids dictionaryLen row cursor output).bind fun (cursor,output) =>
          idBlocks dictionaryLen fuel (count - blockLen) (row + blockLen) reader cursor output

/-- The runs of the body; the flag is false when the caller has to fall back. -/
def blockedRuns (data : List UInt8) (bitWidth values dictionaryLen pageRowStart : ℕ) :
    ℕ → ℕ → ℕ → List (ℕ × ℕ) → List ℤ → Result (Bool × List ℤ)
  | 0, _, _, _, output => .ok (false,output)
  | fuel + 1, pos, decoded, cursor, output =>
    if values ≤ decoded then .ok (decoded == values,output)
    else (readHybridVarint data pos).bind fun
      | (none,_) => .ok (false,output)
      | (some header,pos) =>
        if header &&& 1 = 0 then
          let runLen := min (header >>> 1) (values - decoded)
          let bytes := (bitWidth + 7) / 8
          if data.length < pos + bytes then .ok (false,output)
          else (checkedDictionaryIdI32 (leWord ((data.drop pos).take bytes)) dictionaryLen).bind fun id =>
            (appendRepeatedIdForSelectedRanges id (pageRowStart + decoded) runLen cursor output).bind fun (cursor,output) =>
              blockedRuns data bitWidth values dictionaryLen pageRowStart fuel (pos + bytes) (decoded + runLen) cursor output
        else
          let groups := header >>> 1
          let count := min (groups * 8) (values - decoded)
          let bytes := (groups * 8 * bitWidth + 7) / 8
          if data.length < pos + bytes then .ok (false,output)
          else (idBlocks dictionaryLen count count (pageRowStart + decoded) (.new data pos (pos + bytes) bitWidth)
              cursor output).bind fun (cursor,output) =>
            blockedRuns data bitWidth values dictionaryLen pageRowStart fuel (pos + bytes) (decoded + count) cursor output

def decodeDictionaryIndicesSelectedRangesBlocked (data : List UInt8) (values dictionaryLen : ℕ) (runs : List (ℕ × ℕ))
    (pageRowStart pageRows : ℕ) (output : List ℤ) : Result (Bool × List ℤ) :=
  match data with
  | [] => .ok (false,output)
  | bitWidth :: body =>
    if values ≠ pageRows then .ok (false,output)
    else if 32 < bitWidth.toNat then .ok (false,output)
    else blockedRuns body bitWidth.toNat values dictionaryLen pageRowStart (body.length + 1) 0 0 runs output

end Blocks

section Nullable
variable (maxDefLevel : ℤ) (values dictionaryLen pageRowStart pageRows : ℕ)

/-- The ids of rows with the given levels, with -1 for a NULL, and the number of ids taken. -/
def nextRows : List ℤ → SimpleRleBitpackedDecoder → ℕ → List ℤ → Result (Bool × List ℤ × ℕ × SimpleRleBitpackedDecoder)
  | [], d, decoded, output => .ok (true,output,decoded,d)
  | level :: levels, d, decoded, output =>
    if level = maxDefLevel then d.nextValue.bind fun
      | (none,d) => .ok (false,output,decoded,d)
      | (some value,d) =>
        if dictionaryLen ≤ value then .ok (false,output,decoded,d)
        else nextRows levels d (decoded + 1) (output ++ [asI32 value])
    else nextRows levels d decoded (output ++ [-1])

def selectedNullableRanges (levels : List ℤ) : List (ℕ × ℕ) → ℕ → ℕ → SimpleRleBitpackedDecoder → List ℤ → Result (List ℤ)
  | [], _, _, _, output => .ok output
  | (runStart,runLen) :: runs, cursorRow, decoded, d, output =>
    if pageRowStart + pageRows ≤ runStart then .ok output
    else
      let start := max runStart pageRowStart
      let stop := min (runStart + runLen) (pageRowStart + pageRows)
      if stop ≤ start then selectedNullableRanges levels runs cursorRow decoded d output
      else
        let localStart := start - pageRowStart
        let localEnd := stop - pageRowStart
        if localStart < cursorRow ∨ pageRows < localEnd then .ok output
        else
          let skipPresent := (slice levels cursorRow localStart).count maxDefLevel
          if values < decoded + skipPresent then .ok output
          else (d.skipValues skipPresent).bind fun d =>
            (nextRows maxDefLevel dictionaryLen (slice levels localStart localEnd) d (decoded + skipPresent) output).bind fun
              | (false,output,_) => .ok output
              | (true,output,decoded,d) => selectedNullableRanges levels runs localEnd decoded d output

def decodeDictionaryIndicesSelectedNullableRanges (data : List UInt8) (runs : List (ℕ × ℕ)) (levels : List ℤ)
    (output : List ℤ) : Result (List ℤ) :=
  match data with
  | [] => .ok output
  | bitWidth :: body =>
    if levels.length ≠ pageRows then .ok output
    else if 32 < bitWidth.toNat then .ok output
    else selectedNullableRanges maxDefLevel values dictionaryLen pageRowStart pageRows levels runs 0 0
      (.new body bitWidth.toNat) output

end Nullable
end Dodam.Storage.Encoded

/-! ## The selected ids are a slice of all ids

A well-formed page whose ids decode gives the same ids for the selected rows,
whether they are decoded row by row or in blocks; with NULLs, the ids are those
of the rows and -1 stands for a NULL.
-/
namespace Dodam.Storage.Encoded
open Foundation Execution SimpleRleBitpackedDecoder

section Full
variable {dictionaryLen : ℕ}

theorem asI32_of_lt {id : ℕ} (h : id < 2 ^ 31) : asI32 id = id := by
  rw [asI32,wrapSigned,Int.bmod_def]
  omega

theorem asI32_neg {id : ℕ} (hlt : id < 2 ^ 32) (h : 2 ^ 31 ≤ id) : asI32 id < 0 := by
  rw [asI32,wrapSigned,Int.bmod_def]
  omega

variable {w : UInt8} {body : List UInt8} {ids : List ℕ}

theorem decodeRleI32Values_eq (hw : w.toNat ≤ 32) (hbody : HybridEncodes w.toNat body ids) :
    decodeRleI32Values body w.toNat ids.length [] = .ok (ids.map asI32) := by
  obtain ⟨padding,hruns⟩ := hbody
  obtain ⟨d,hbatch,-⟩ := (remaining_new hw hruns).decodeI32Batch ids.length []
  rw [decodeRleI32Values,if_neg (Nat.not_lt.mpr hw),hbatch,List.take_left,List.nil_append]
  rfl

theorem decodeDictionaryIndices_eq (hw : w.toNat ≤ 32) (hbody : HybridEncodes w.toNat body ids)
    (hids : ∀ id ∈ ids, id < dictionaryLen ∧ id < 2 ^ 31) :
    decodeDictionaryIndices (w :: body) ids.length dictionaryLen [] = .ok (ids.map asI32) := by
  rw [decodeDictionaryIndices,decodeRleI32Values_eq hw hbody]
  refine if_neg (not_or.mpr ⟨by simp,fun hbad => ?_⟩)
  obtain ⟨value,hvalue,hbad⟩ := List.any_eq_true.mp hbad
  obtain ⟨id,hid,rfl⟩ := List.mem_map.mp hvalue
  obtain ⟨hlt,hsigned⟩ := hids id hid
  rw [asI32_of_lt hsigned] at hbad
  simp at hbad
  omega

theorem decodeDictionaryIndices_ok {all : List ℤ} (hw : w.toNat ≤ 32)
    (hbody : HybridEncodes w.toNat body ids) (hall : decodeDictionaryIndices (w :: body) ids.length dictionaryLen [] = .ok all) :
    all = ids.map asI32 ∧ ∀ id ∈ ids, id < dictionaryLen ∧ id < 2 ^ 31 := by
  rw [decodeDictionaryIndices,decodeRleI32Values_eq hw hbody] at hall
  obtain ⟨padding,hruns⟩ := hbody
  simp only [Except.bind,List.length_nil,List.drop_zero] at hall
  split_ifs at hall with hbad
  · cases hall
  · cases hall
    refine ⟨rfl,fun id hid => ?_⟩
    obtain ⟨-,hknown⟩ := not_or.mp hbad
    have hone : ¬(asI32 id < 0 || dictionaryLen ≤ (asI32 id).toNat) = true := fun h =>
      hknown (List.any_eq_true.mpr ⟨asI32 id,List.mem_map_of_mem hid,h⟩)
    rw [Bool.or_eq_true,not_or,decide_eq_true_eq,decide_eq_true_eq] at hone
    have hwide : id < 2 ^ 32 :=
      (hruns.lt id (List.mem_append_left _ hid)).trans_le (Nat.pow_le_pow_right (by decide) hw)
    have hsigned : id < 2 ^ 31 := by
      by_contra hge
      exact hone.1 (asI32_neg hwide (Nat.not_lt.mp hge))
    rw [asI32_of_lt hsigned] at hone
    exact ⟨by omega,hsigned⟩

end Full

section Ranges
variable {dictionaryLen : ℕ} {d : SimpleRleBitpackedDecoder} {values : List ℕ}

theorem nextIds_eq (dictionaryLen : ℕ) {n : ℕ} (h : d.Remaining values) (hn : n ≤ values.length) (hknown : ∀ id ∈ values.take n, id < dictionaryLen)
    (output : List ℤ) :
    ∃ d', nextIds dictionaryLen n d output = .ok (true,output ++ (values.take n).map asI32,d') ∧
      d'.Remaining (values.drop n) := by
  induction n generalizing d values output with
  | zero => exact ⟨d,by simp [nextIds],h⟩
  | succ n ih =>
    obtain ⟨value,values,rfl⟩ := List.exists_cons_of_length_pos (Nat.lt_of_lt_of_le n.succ_pos hn)
    obtain ⟨d₁,hnext,hrest⟩ := h.nextValue
    obtain ⟨d',hd',hrest'⟩ := ih hrest (Nat.le_of_succ_le_succ hn)
      (fun id hid => hknown id (List.mem_cons_of_mem _ hid)) (output ++ [asI32 value])
    refine ⟨d',?_,hrest'⟩
    have hvalue := hknown value List.mem_cons_self
    rw [nextIds,hnext]
    simp only [Except.bind,List.head?_cons,if_neg (Nat.not_le.mpr hvalue),hd']
    rw [List.take_succ_cons,List.map_cons,List.append_assoc]
    rfl

theorem rangesOf_lower {p : ℕ → Prop} {hi lo lo' : ℕ} {ranges : List (ℕ × ℕ)} (h : RangesOf p hi lo ranges) (hle : lo' ≤ lo)
    (hnone : ∀ i, lo' ≤ i → i < lo → ¬p i) : RangesOf p hi lo' ranges := by
  cases h with
  | nil hrest =>
    refine .nil fun i hi hlt => ?_
    rcases Nat.lt_or_ge i lo with hbelow | hge
    · exact hnone i hi hbelow
    · exact hrest i hge hlt
  | cons hlo hab hhi hbefore hin hrest =>
    refine .cons (hle.trans hlo) hab hhi (fun i hi hlt => ?_) hin hrest
    rcases Nat.lt_or_ge i lo with hbelow | hge
    · exact hnone i hi hbelow
    · exact hbefore i hge hlt

variable {p : ℕ → Prop} {pageRowStart pageRows : ℕ} {ids rest : List ℕ}

theorem localRanges_run {start count s n : ℕ} {runs : List (ℕ × ℕ)} (hbefore : ¬start + count ≤ s) (hbehind : ¬s + n ≤ start) :
    localRanges start count ((s,n) :: runs) =
      (max s start - start,min (s + n) (start + count) - start) :: localRanges start count runs := by
  rw [localRanges,if_neg hbefore,if_neg hbehind]

theorem selectedRanges_eq {runs : List (ℕ × ℕ)} {cursor : ℕ} (hids : ∀ id ∈ ids, id < dictionaryLen)
    (hrows : pageRows ≤ ids.length) (hranges : RangesOf p pageRows cursor (localRanges pageRowStart pageRows runs))
    (h : d.Remaining ((ids ++ rest).drop cursor)) (output : List ℤ) :
    selectedRanges ids.length dictionaryLen pageRowStart pageRows runs cursor d output =
      .ok (output ++ ((localRanges pageRowStart pageRows runs).flatMap fun r => slice ids r.1 r.2).map asI32) := by
  induction runs generalizing cursor d output with
  | nil => simp [selectedRanges,localRanges]
  | cons run runs ih =>
    obtain ⟨s,n⟩ := run
    rw [selectedRanges]
    by_cases hafter : pageRowStart + pageRows ≤ s
    · rw [if_pos hafter,localRanges,if_pos hafter]
      simp
    rw [if_neg hafter]
    by_cases hbehind : s + n ≤ pageRowStart
    · have hlocal : localRanges pageRowStart pageRows ((s,n) :: runs) = localRanges pageRowStart pageRows runs := by
        rw [localRanges,if_neg hafter,if_pos hbehind]
      rw [hlocal] at hranges ⊢
      rw [if_pos (by omega)]
      exact ih hranges h output
    rw [localRanges_run hafter hbehind] at hranges ⊢
    cases hranges with
    | @cons _ a b _ hlo hab hhi hbefore hin hrest =>
      by_cases hempty : min (s + n) (pageRowStart + pageRows) ≤ max s pageRowStart
      · -- nothing of the run is inside the page
        have heq : min (s + n) (pageRowStart + pageRows) - pageRowStart = max s pageRowStart - pageRowStart := by omega
        rw [heq] at hrest
        rw [if_pos hempty,ih (rangesOf_lower hrest hlo hbefore) h,List.flatMap_cons,heq,slice,Nat.sub_self,List.take_zero,
          List.nil_append]
      rw [if_neg hempty,if_neg (by omega)]
      generalize max s pageRowStart - pageRowStart = a at *
      generalize min (s + n) (pageRowStart + pageRows) - pageRowStart = b at *
      obtain ⟨d₁,hskip,hd₁⟩ := h.skipValues (a - cursor)
      rw [List.drop_drop,Nat.add_sub_cancel' hlo] at hd₁
      have htake : ((ids ++ rest).drop a).take (b - a) = slice ids a b := slice_append_of_le hab (hhi.trans hrows)
      obtain ⟨d₂,hnext,hd₂⟩ := nextIds_eq dictionaryLen hd₁ (n := b - a) (by
        rw [List.length_drop,List.length_append]
        omega) (fun id hid => hids id (List.mem_of_mem_drop (List.mem_of_mem_take (htake ▸ hid)))) output
      rw [List.drop_drop,Nat.add_sub_cancel' hab] at hd₂
      simp only [hskip,hnext,Except.bind]
      rw [ih hrest hd₂,htake,List.flatMap_cons,List.map_append,List.append_assoc]

end Ranges

section Nullable
variable {dictionaryLen : ℕ} {d : SimpleRleBitpackedDecoder} {maxDefLevel : ℤ}

def presentFlags (maxDefLevel : ℤ) (levels : List ℤ) : List Bool := levels.map (· == maxDefLevel)

def deliveredId (id : Option ℕ) : ℤ := id.elim (-1) asI32

theorem deliveredId_some (id : ℕ) : deliveredId (some id) = asI32 id := by rw [deliveredId,Option.elim_some]

theorem count_presentFlags (levels : List ℤ) : (presentFlags maxDefLevel levels).count true = levels.count maxDefLevel := by
  induction levels with
  | nil => rfl
  | cons level levels ih =>
    rw [presentFlags,List.map_cons,List.count_cons,List.count_cons,← presentFlags,ih]
    by_cases h : level = maxDefLevel
    · simp [h]
    · simp [h]

theorem nextRows_eq (dictionaryLen : ℕ) {levels : List ℤ} {values : List ℕ} (h : d.Remaining values)
    (hcount : levels.count maxDefLevel ≤ values.length)
    (hknown : ∀ id ∈ values.take (levels.count maxDefLevel), id < dictionaryLen) (decoded : ℕ) (output : List ℤ) :
    ∃ d', nextRows maxDefLevel dictionaryLen levels d decoded output =
        .ok (true,output ++ (rowIds (presentFlags maxDefLevel levels) values).map deliveredId,
          decoded + levels.count maxDefLevel,d') ∧
      d'.Remaining (values.drop (levels.count maxDefLevel)) := by
  induction levels generalizing d values decoded output with
  | nil => exact ⟨d,by simp [nextRows,presentFlags,rowIds],h⟩
  | cons level levels ih =>
    rw [nextRows]
    by_cases hlevel : level = maxDefLevel
    · rw [hlevel,List.count_cons_self] at hcount hknown ⊢
      obtain ⟨value,values,rfl⟩ := List.exists_cons_of_length_pos (Nat.lt_of_lt_of_le (Nat.succ_pos _) hcount)
      obtain ⟨d₁,hnext,hrest⟩ := h.nextValue
      obtain ⟨d',hd',hrest'⟩ := ih hrest (Nat.le_of_succ_le_succ hcount)
        (fun id hid => hknown id (List.mem_cons_of_mem _ hid)) (decoded + 1) (output ++ [asI32 value])
      have hvalue := hknown value List.mem_cons_self
      have hflags : presentFlags maxDefLevel (maxDefLevel :: levels) = true :: presentFlags maxDefLevel levels := by
        rw [presentFlags,List.map_cons,beq_self_eq_true]
        rfl
      refine ⟨d',?_,hrest'⟩
      rw [if_pos rfl,hnext]
      simp only [Except.bind,List.head?_cons,if_neg (Nat.not_le.mpr hvalue),List.tail_cons] at hd' ⊢
      have hids : (rowIds (true :: presentFlags maxDefLevel levels) (value :: values)).map deliveredId =
          asI32 value :: (rowIds (presentFlags maxDefLevel levels) values).map deliveredId := by
        rw [rowIds,List.map_cons,List.head?_cons,deliveredId_some,List.tail_cons]
      have hnumber : decoded + 1 + levels.count maxDefLevel = decoded + (levels.count maxDefLevel + 1) := by omega
      rw [hd',hflags,hids,List.append_assoc,List.singleton_append,hnumber]
    · rw [List.count_cons_of_ne hlevel] at hcount hknown ⊢
      obtain ⟨d',hd',hrest'⟩ := ih h hcount hknown decoded (output ++ [-1])
      have hflags : presentFlags maxDefLevel (level :: levels) = false :: presentFlags maxDefLevel levels := by
        rw [presentFlags,List.map_cons,beq_eq_false_iff_ne.mpr hlevel]
        rfl
      refine ⟨d',?_,hrest'⟩
      rw [if_neg hlevel,hd',hflags,List.append_assoc]
      rfl

variable {p : ℕ → Prop} {pageRowStart pageRows : ℕ} {ids rest : List ℕ} {levels : List ℤ}

theorem selectedNullableRanges_eq {runs : List (ℕ × ℕ)} {cursor : ℕ} (hids : ∀ id ∈ ids, id < dictionaryLen)
    (hlen : levels.length = pageRows) (hcount : levels.count maxDefLevel = ids.length)
    (hranges : RangesOf p pageRows cursor (localRanges pageRowStart pageRows runs))
    (h : d.Remaining ((ids ++ rest).drop ((levels.take cursor).count maxDefLevel))) (output : List ℤ) :
    selectedNullableRanges maxDefLevel ids.length dictionaryLen pageRowStart pageRows levels runs cursor
        ((levels.take cursor).count maxDefLevel) d output =
      .ok (output ++ ((localRanges pageRowStart pageRows runs).flatMap fun r =>
        slice (rowIds (presentFlags maxDefLevel levels) ids) r.1 r.2).map deliveredId) := by
  induction runs generalizing cursor d output with
  | nil => simp [selectedNullableRanges,localRanges]
  | cons run runs ih =>
    obtain ⟨s,n⟩ := run
    rw [selectedNullableRanges]
    by_cases hafter : pageRowStart + pageRows ≤ s
    · rw [if_pos hafter,localRanges,if_pos hafter]
      simp
    rw [if_neg hafter]
    dsimp only
    by_cases hbehind : s + n ≤ pageRowStart
    · have hlocal : localRanges pageRowStart pageRows ((s,n) :: runs) = localRanges pageRowStart pageRows runs := by
        rw [localRanges,if_neg hafter,if_pos hbehind]
      rw [hlocal] at hranges ⊢
      rw [if_pos (by omega)]
      exact ih hranges h output
    rw [localRanges_run hafter hbehind] at hranges ⊢
    cases hranges with
    | @cons _ a b _ hlo hab hhi hbefore hin hrest =>
      by_cases hempty : min (s + n) (pageRowStart + pageRows) ≤ max s pageRowStart
      · -- nothing of the run is inside the page
        have heq : min (s + n) (pageRowStart + pageRows) - pageRowStart = max s pageRowStart - pageRowStart := by omega
        rw [heq] at hrest
        rw [if_pos hempty,ih (rangesOf_lower hrest hlo hbefore) h,List.flatMap_cons,heq,slice,Nat.sub_self,List.take_zero,
          List.nil_append]
      rw [if_neg hempty,if_neg (by omega)]
      generalize max s pageRowStart - pageRowStart = a at *
      generalize min (s + n) (pageRowStart + pageRows) - pageRowStart = b at *
      -- the ids taken before the run, before its end, and in all
      have hskip : (levels.take cursor).count maxDefLevel + (slice levels cursor a).count maxDefLevel =
          (levels.take a).count maxDefLevel := by
        rw [← List.count_append,← take_eq_take_append_slice hlo]
      have hnext : (levels.take a).count maxDefLevel + (slice levels a b).count maxDefLevel =
          (levels.take b).count maxDefLevel := by
        rw [← List.count_append,← take_eq_take_append_slice hab]
      have hall : (levels.take b).count maxDefLevel ≤ ids.length :=
        hcount ▸ (List.take_sublist b levels).count_le maxDefLevel
      obtain ⟨d₁,hskipped,hd₁⟩ := h.skipValues ((slice levels cursor a).count maxDefLevel)
      rw [List.drop_drop,hskip,List.drop_append_of_le_length (by omega)] at hd₁
      have hsome : (slice levels a b).count maxDefLevel ≤ (ids.drop ((levels.take a).count maxDefLevel)).length := by
        rw [List.length_drop]
        omega
      obtain ⟨d₂,hrows,hd₂⟩ := nextRows_eq dictionaryLen hd₁
        (hsome.trans (by rw [List.length_append]; exact Nat.le_add_right ..)) (fun id hid => by
          rw [List.take_append_of_le_length hsome] at hid
          exact hids id (List.mem_of_mem_drop (List.mem_of_mem_take hid))) ((levels.take a).count maxDefLevel) output
      have hids' : rowIds (presentFlags maxDefLevel (slice levels a b))
          (ids.drop ((levels.take a).count maxDefLevel) ++ rest) =
          slice (rowIds (presentFlags maxDefLevel levels) ids) a b := by
        have hflags : presentFlags maxDefLevel (slice levels a b) = slice (presentFlags maxDefLevel levels) a b := by
          rw [presentFlags,presentFlags,slice_map]
        have htaken : ((presentFlags maxDefLevel levels).take a).count true = (levels.take a).count maxDefLevel := by
          rw [presentFlags,← List.map_take,← presentFlags,count_presentFlags]
        rw [rowIds_slice,htaken,← hflags,← rowIds_take_count,← rowIds_take_count _ (ids.drop _),count_presentFlags,
          List.take_append_of_le_length hsome]
      rw [List.drop_append_of_le_length hsome,List.drop_drop,hnext,← List.drop_append_of_le_length hall] at hd₂
      rw [hskip,if_neg (by omega),hskipped]
      simp only [Except.bind,hrows,hids']
      rw [hnext,ih hrest hd₂,List.flatMap_cons,List.map_append,List.append_assoc]

end Nullable
end Dodam.Storage.Encoded
