import Dodam.Storage.PageIds

/-! # The blocks of a bit-packed run

A run without an id behind the dictionary selects the rows of the selected ids.
-/
namespace Dodam.Storage
open Foundation Execution BitpackedDictionaryIdBlockReader

/-- The block of the first id behind the dictionary is matched at once. -/
def reportedPacked (w dictionaryLen : ℕ) (ids : List ℕ) : Bool :=
  (ids.findIdx? (dictionaryLen ≤ ·)).any fun k =>
    maskedAtOnce w (min dictionaryIdBlock (ids.length - dictionaryIdBlock * (k / dictionaryIdBlock)))

section Ids
variable {w dictionaryLen : ℕ} {ids block rest : List ℕ}

theorem reportedPacked_append (h : ∀ id ∈ block, id < dictionaryLen) (hlen : block.length = dictionaryIdBlock) :
    reportedPacked w dictionaryLen (block ++ rest) = reportedPacked w dictionaryLen rest := by
  have hnone : block.findIdx? (dictionaryLen ≤ ·) = none :=
    List.findIdx?_eq_none_iff.mpr fun id hid => decide_eq_false (Nat.not_le.mpr (h id hid))
  rw [reportedPacked,reportedPacked,List.findIdx?_append,hnone,List.length_append,hlen]
  cases rest.findIdx? (dictionaryLen ≤ ·) with
  | none => rfl
  | some k =>
    have hturn : (k + dictionaryIdBlock) / dictionaryIdBlock = k / dictionaryIdBlock + 1 :=
      Nat.add_div_right k (by decide : 0 < 64)
    have hleft : dictionaryIdBlock + rest.length - dictionaryIdBlock * (k / dictionaryIdBlock + 1) =
        rest.length - dictionaryIdBlock * (k / dictionaryIdBlock) := by
      rw [Nat.mul_succ]
      omega
    simp only [Option.none_or,Option.map_some,Option.any_some,hturn,hleft]

theorem reportedPacked_first (h : ¬∀ id ∈ block, id < dictionaryLen)
    (hlen : block.length = min dictionaryIdBlock (block ++ rest).length) :
    reportedPacked w dictionaryLen (block ++ rest) = maskedAtOnce w block.length := by
  have hfound : (block ++ rest).findIdx? (dictionaryLen ≤ ·) = block.findIdx? (dictionaryLen ≤ ·) := by
    rw [List.findIdx?_append]
    cases hfind : block.findIdx? (dictionaryLen ≤ ·) with
    | none =>
      refine absurd (fun id hid => ?_) h
      exact Nat.not_le.mp (of_decide_eq_false (List.findIdx?_eq_none_iff.mp hfind id hid))
    | some k => rfl
  rw [reportedPacked,hfound]
  cases hfind : block.findIdx? (dictionaryLen ≤ ·) with
  | none =>
    refine absurd (fun id hid => ?_) h
    exact Nat.not_le.mp (of_decide_eq_false (List.findIdx?_eq_none_iff.mp hfind id hid))
  | some k =>
    obtain ⟨hk,-⟩ := List.findIdx?_eq_some_iff_findIdx_eq.mp hfind
    have hzero : k / dictionaryIdBlock = 0 := Nat.div_eq_of_lt (by omega)
    rw [Option.any_some,hzero,Nat.mul_zero,Nat.sub_zero,← hlen]

theorem selectedMaskBitset_eq (matcher : DictionaryIdMatcher) (ids : List ℕ) (index mask : ℕ) :
    selectedMaskBitset dictionaryLen matcher ids index mask =
      if ∀ id ∈ ids, id < dictionaryLen then some (mask ||| flagsMask (ids.map matcher.contains) index) else none := by
  induction ids generalizing index mask with
  | nil => simp [selectedMaskBitset,flagsMask]
  | cons id ids ih =>
    by_cases hle : dictionaryLen ≤ id
    · rw [selectedMaskBitset,if_pos hle,if_neg fun h => Nat.not_lt.mpr hle (h id List.mem_cons_self)]
    · have hmask : (if matcher.contains id then mask ||| 1 <<< index else mask) =
          mask ||| if matcher.contains id then 1 <<< index else 0 := by
        split_ifs
        · rfl
        · rw [Nat.or_zero]
      have hall : (∀ i ∈ id :: ids, i < dictionaryLen) ↔ ∀ i ∈ ids, i < dictionaryLen := by
        rw [List.forall_mem_cons,and_iff_right (Nat.not_le.mp hle)]
      rw [selectedMaskBitset,if_neg hle,ih,hmask,List.map_cons,flagsMask,Nat.lor_assoc]
      simp only [hall]

end Ids

section Blocks
variable {data : List UInt8} {stop w off count fuel row dictionaryLen rowOffset : ℕ} {matcher : DictionaryIdMatcher}
  {p : PendingRuns} {initial : SelectedRuns} {seen : List ℕ}

theorem packedBlocks_known (hcount : 0 < count) (hinside : off + count * w ≤ 8 * stop)
    (hknown : ∀ id ∈ bitFields (leNat data) w off (min dictionaryIdBlock count), id < dictionaryLen) :
    packedBlocks dictionaryLen rowOffset matcher (fuel + 1) count row (atBit data stop w off) p =
      packedBlocks dictionaryLen rowOffset matcher fuel (count - min dictionaryIdBlock count)
        (row + min dictionaryIdBlock count) (atBit data stop w (off + min dictionaryIdBlock count * w))
        (appendSelectedMaskAsRuns (rowOffset + row) (min dictionaryIdBlock count)
          (flagsMask ((bitFields (leNat data) w off (min dictionaryIdBlock count)).map matcher.contains) 0) p) := by
  have hblock : off + min dictionaryIdBlock count * w ≤ 8 * stop :=
    (Nat.add_le_add_left (Nat.mul_le_mul_right _ (Nat.min_le_right ..)) _).trans hinside
  rw [packedBlocks,if_neg hcount.ne']
  dsimp only
  rw [decodeSelectedMaskBlock_atBit matcher dictionaryLen hblock,if_pos hknown]
  split_ifs
  · rfl
  · simp only [Except.bind,decodeBlock_atBit hblock,dictionaryIdBlockSelectedMaskBitset,selectedMaskBitset_eq,if_pos hknown,
      Nat.zero_or]

theorem packedBlocks_unknown (halign : off % 8 = 0) (hcount : 0 < count) (hinside : off + count * w ≤ 8 * stop)
    (hunknown : ¬∀ id ∈ bitFields (leNat data) w off (min dictionaryIdBlock count), id < dictionaryLen) :
    packedBlocks dictionaryLen rowOffset matcher (fuel + 1) count row (atBit data stop w off) p =
      if maskedAtOnce w (min dictionaryIdBlock count) = true then invalidDictionaryIdError else .ok (false,p) := by
  have hblock : off + min dictionaryIdBlock count * w ≤ 8 * stop :=
    (Nat.add_le_add_left (Nat.mul_le_mul_right _ (Nat.min_le_right ..)) _).trans hinside
  rw [packedBlocks,if_neg hcount.ne']
  dsimp only
  rw [decodeSelectedMaskBlock_atBit matcher dictionaryLen hblock,if_neg hunknown]
  simp only [halign,Nat.min_le_left,true_and]
  split_ifs
  · rfl
  · simp only [Except.bind,decodeBlock_atBit hblock,dictionaryIdBlockSelectedMaskBitset,selectedMaskBitset_eq,
      if_neg hunknown]

theorem packedBlocks_scan (data : List UInt8) (dictionaryLen : ℕ) (matcher : DictionaryIdMatcher) (halign : 0 < count → off % 8 = 0) (hinside : off + count * w ≤ 8 * stop) (hfuel : count ≤ fuel)
    (h : p.After initial seen (rowOffset + row)) :
    ((∀ id ∈ bitFields (leNat data) w off count, id < dictionaryLen) ∧
      ∃ p', packedBlocks dictionaryLen rowOffset matcher fuel count row (atBit data stop w off) p = .ok (true,p') ∧
        p'.After initial
          (seen ++ markedFrom (rowOffset + row) ((bitFields (leNat data) w off count).map matcher.contains))
          (rowOffset + row + count)) ∨
    ((¬∀ id ∈ bitFields (leNat data) w off count, id < dictionaryLen) ∧
      if reportedPacked w dictionaryLen (bitFields (leNat data) w off count) = true then
        packedBlocks dictionaryLen rowOffset matcher fuel count row (atBit data stop w off) p = invalidDictionaryIdError
      else ∃ p', packedBlocks dictionaryLen rowOffset matcher fuel count row (atBit data stop w off) p = .ok (false,p')) := by
  induction fuel generalizing count off row seen p with
  | zero =>
    obtain rfl := Nat.le_zero.mp hfuel
    exact .inl ⟨by simp [bitFields],p,rfl,by simpa [bitFields] using h⟩
  | succ fuel ih =>
    rcases Nat.eq_zero_or_pos count with rfl | hcount
    · exact .inl ⟨by simp [bitFields],p,rfl,by simpa [bitFields] using h⟩
    obtain ⟨left,hleft⟩ := Nat.exists_eq_add_of_le (Nat.min_le_right dictionaryIdBlock count)
    have hids : bitFields (leNat data) w off count = bitFields (leNat data) w off (min dictionaryIdBlock count) ++
        bitFields (leNat data) w (off + min dictionaryIdBlock count * w) left := by
      rw [← bitFields_add,← hleft]
    by_cases hknown : ∀ id ∈ bitFields (leNat data) w off (min dictionaryIdBlock count), id < dictionaryLen
    · have hlen : ((bitFields (leNat data) w off (min dictionaryIdBlock count)).map matcher.contains).length =
          min dictionaryIdBlock count := by rw [List.length_map,length_bitFields]
      have hafter := appendSelectedMaskAsRuns_after
        (hlen.trans_le (Nat.min_le_left ..) : _ ≤ 64) h
      rw [hlen,Nat.add_assoc] at hafter
      have hsub : count - min dictionaryIdBlock count = left := by omega
      have hfull : 0 < left → min dictionaryIdBlock count = 64 := by
        simp only [dictionaryIdBlock] at *
        omega
      rw [packedBlocks_known hcount hinside hknown,hsub]
      have hbits : off + (min dictionaryIdBlock count + left) * w = off + min dictionaryIdBlock count * w + left * w := by ring
      rw [hleft,hbits] at hinside
      have hrest := ih (fun hpos => by
        have := halign hcount
        rw [hfull hpos]
        omega) hinside (by
          have : 0 < min dictionaryIdBlock count := Nat.lt_min.mpr ⟨by decide,hcount⟩
          omega) hafter
      rw [hids]
      rcases hrest with ⟨hall,p',hp',hafter'⟩ | ⟨hsome,hp'⟩
      · refine .inl ⟨fun id hid => (List.mem_append.mp hid).elim (hknown id) (hall id),p',hp',?_⟩
        rw [List.map_append,markedFrom_append,hlen,← List.append_assoc,Nat.add_assoc rowOffset]
        have hstop : rowOffset + row + count = rowOffset + (row + min dictionaryIdBlock count) + left := by omega
        rw [hstop]
        exact hafter'
      · refine .inr ⟨fun hall => hsome fun id hid => hall id (List.mem_append_right _ hid),?_⟩
        have hpos : 0 < left := Nat.pos_of_ne_zero fun hzero => by
          subst hzero
          exact hsome (by simp [bitFields])
        rw [reportedPacked_append hknown (by rw [length_bitFields,hfull hpos]; rfl)]
        exact hp'
    · refine .inr ⟨fun hall => hknown fun id hid => hall id (hids ▸ List.mem_append_left _ hid),?_⟩
      have hlength : (bitFields (leNat data) w off (min dictionaryIdBlock count)).length =
          min dictionaryIdBlock (bitFields (leNat data) w off (min dictionaryIdBlock count) ++
            bitFields (leNat data) w (off + min dictionaryIdBlock count * w) left).length := by
        rw [← hids,length_bitFields,length_bitFields]
      rw [packedBlocks_unknown (halign hcount) hcount hinside hknown,hids,reportedPacked_first hknown hlength,length_bitFields]
      split_ifs
      · rfl
      · exact ⟨p,rfl⟩

end Blocks
end Dodam.Storage

/-! ## Pages without definition levels

The scan goes through the runs of the page. It selects the rows of the selected
ids when the runs hold an id of the dictionary for every row. Otherwise it ends
with an error or, at most faults, without one.
-/
namespace Dodam.Storage
open Foundation Execution BitpackedDictionaryIdBlockReader

/-- The first fault of the runs is one that the scan reports. -/
def reportedRuns (w dictionaryLen : ℕ) (e : RunsEnd) : List PageRun → ℕ → Bool
  | _, 0 => false
  | [], _ + 1 => e = .overflow
  | run :: runs, n + 1 =>
    if run.known dictionaryLen (n + 1) then reportedRuns w dictionaryLen e runs (n + 1 - run.ids.length)
    else
      match run with
      | .repeated .. => false
      | .packed ids => reportedPacked w dictionaryLen (ids.take (n + 1))

variable {e : RunsEnd} {runs : List PageRun}

theorem reportedRuns_packed {w dictionaryLen n : ℕ} {ids : List ℕ}
    (h : ¬PageRun.known dictionaryLen (n + 1) (.packed ids) = true) :
    reportedRuns w dictionaryLen e (.packed ids :: runs) (n + 1) = reportedPacked w dictionaryLen (ids.take (n + 1)) :=
  if_neg h

theorem reportedRuns_known {w dictionaryLen n : ℕ} {run : PageRun}
    (h : run.known dictionaryLen (n + 1) = true) :
    reportedRuns w dictionaryLen e (run :: runs) (n + 1) =
      reportedRuns w dictionaryLen e runs (n + 1 - run.ids.length) :=
  if_pos h

theorem reportedRuns_repeated {w dictionaryLen n len id : ℕ}
    (h : ¬PageRun.known dictionaryLen (n + 1) (.repeated len id) = true) :
    reportedRuns w dictionaryLen e (.repeated len id :: runs) (n + 1) = false :=
  if_neg h

section Steps
variable {dictionaryLen rowOffset w values rows fuel pos pos' row : ℕ} {data : List UInt8} {matcher : DictionaryIdMatcher}
  {p : PendingRuns}

theorem nonNullRuns_done (hrow : row = min values rows) :
    nonNullRuns dictionaryLen rowOffset data w values rows matcher (fuel + 1) pos row row p =
      if values = rows then .ok p.close.out else .ok p.out := by
  have hcond : (row ≠ values ∨ row ≠ rows) ↔ ¬values = rows := by omega
  have hstop : ¬(row < values ∧ row < rows) := by omega
  rw [nonNullRuns,if_neg hstop]
  simp only [hcond,ite_not]

theorem nonNullRuns_last (dictionaryLen rowOffset fuel : ℕ) (matcher : DictionaryIdMatcher) (p : PendingRuns) {e : RunsEnd}
    (hrow : row < values ∧ row < rows) (hrun : runAt w data pos = .error e) :
    (e = .overflow ∧
      ∃ f, nonNullRuns dictionaryLen rowOffset data w values rows matcher (fuel + 1) pos row row p = .error f) ∨
    (e ≠ .overflow ∧
      nonNullRuns dictionaryLen rowOffset data w values rows matcher (fuel + 1) pos row row p = .ok p.out) := by
  rw [nonNullRuns,if_pos hrow]
  rw [runAt] at hrun
  split at hrun
  · next f hheader =>
    cases hrun
    rw [hheader]
    exact .inl ⟨rfl,f,rfl⟩
  · next hheader =>
    cases hrun
    rw [hheader]
    exact .inr ⟨by decide,rfl⟩
  · next header start hheader =>
    dsimp only at hrun
    split_ifs at hrun with heven hfits hfits
    · cases hrun
      refine .inr ⟨by decide,?_⟩
      rw [hheader]
      simp only [Except.bind,heven,if_true,if_pos hfits]
    · cases hrun
      refine .inr ⟨by decide,?_⟩
      rw [hheader]
      simp only [Except.bind,heven,if_false,if_pos hfits]

theorem nonNullRuns_repeated {len id : ℕ} (hrow : row < values ∧ row < rows)
    (hrun : runAt w data pos = .ok (.repeated len id,pos')) :
    nonNullRuns dictionaryLen rowOffset data w values rows matcher (fuel + 1) pos row row p =
      if dictionaryLen ≤ id then .ok p.out
      else
        nonNullRuns dictionaryLen rowOffset data w values rows matcher fuel pos' (row + min len (min values rows - row))
          (row + min len (min values rows - row))
          (if matcher.contains id then p.select (rowOffset + row) (min len (min values rows - row)) else p.close) := by
  rw [nonNullRuns,if_pos hrow]
  rw [runAt] at hrun
  split at hrun
  · cases hrun
  · cases hrun
  · next header start hheader =>
    dsimp only at hrun
    split_ifs at hrun with heven hfits hfits
    · cases hrun
      have hlen : min (min (header >>> 1) (values - row)) (rows - row) = min (header >>> 1) (min values rows - row) := by
        rw [min_assoc,Nat.sub_min_sub_right]
      rw [hheader]
      simp only [Except.bind,heven,if_true,if_neg hfits,leWord_eq_leNat,hlen]
    · cases hrun

theorem nonNullRuns_packed (dictionaryLen rowOffset fuel : ℕ) (matcher : DictionaryIdMatcher) (p : PendingRuns) {ids : List ℕ} (hrow : row < values ∧ row < rows)
    (hrun : runAt w data pos = .ok (.packed ids,pos')) :
    ∃ start, ids = bitFields (leNat data) w (8 * start) ids.length ∧ 8 * start + ids.length * w ≤ 8 * pos' ∧
      nonNullRuns dictionaryLen rowOffset data w values rows matcher (fuel + 1) pos row row p =
        (packedBlocks dictionaryLen rowOffset matcher (min ids.length (min values rows - row))
          (min ids.length (min values rows - row)) row (atBit data pos' w (8 * start)) p).bind fun
          | (false,p) => .ok p.out
          | (true,p) =>
            nonNullRuns dictionaryLen rowOffset data w values rows matcher fuel pos'
              (row + min ids.length (min values rows - row)) (row + min ids.length (min values rows - row)) p := by
  rw [nonNullRuns,if_pos hrow]
  rw [runAt] at hrun
  split at hrun
  · cases hrun
  · cases hrun
  · next header start hheader =>
    dsimp only at hrun
    split_ifs at hrun with heven hfits hfits
    · cases hrun
    · cases hrun
      have hlen : min (min (header >>> 1 * 8) (values - row)) (rows - row) = min (header >>> 1 * 8) (min values rows - row) := by
        rw [min_assoc,Nat.sub_min_sub_right]
      refine ⟨start,by rw [length_bitFields],?_,?_⟩
      · rw [length_bitFields]
        omega
      · rw [hheader,length_bitFields]
        simp only [Except.bind,heven,if_false,if_neg hfits,hlen,new_eq_atBit]
        all_goals rfl

end Steps

/-- What the scan of the rows from `start` on comes to, by the ids they hold, if they do, and whether
a fault is reported. -/
def ScanEnds (initial : SelectedRuns) (seen : List ℕ) (contains : ℕ → Bool) (start n : ℕ) (agree : Prop) [Decidable agree]
    (reported : Bool) (out : Result SelectedRuns) : Option (List ℕ) → Prop
  | some ids => ∃ p : PendingRuns, p.After initial (seen ++ markedFrom start (ids.map contains)) (start + n) ∧
      out = if agree then .ok p.close.out else .ok p.out
  | none => if reported then ∃ f, out = .error f else ∃ s, out = .ok s

variable {dictionaryLen rowOffset w values rows : ℕ} {data : List UInt8} {matcher : DictionaryIdMatcher}
  {initial : SelectedRuns}

/-- The scan from some run on, with `n` rows left. -/
theorem nonNullRuns_scan {pos fuel row n : ℕ} {runs : List PageRun} {e : RunsEnd} {seen : List ℕ} {p : PendingRuns}
    (hruns : RunsAt w data pos runs e) (hfuel : data.length - pos < fuel) (h : p.After initial seen (rowOffset + row))
    (hn : row + n = min values rows) :
    ScanEnds initial seen matcher.contains (rowOffset + row) n (values = rows) (reportedRuns w dictionaryLen e runs n)
      (nonNullRuns dictionaryLen rowOffset data w values rows matcher fuel pos row row p)
      (firstIds dictionaryLen runs n) := by
  induction hruns generalizing fuel row n seen p with
  | @last pos e hrun =>
    obtain ⟨fuel,rfl⟩ := Nat.exists_eq_add_of_lt hfuel
    cases n with
    | zero => exact ⟨p,by simpa using h,nonNullRuns_done hn⟩
    | succ n =>
      have hrow : row < values ∧ row < rows := by omega
      have hreport : reportedRuns w dictionaryLen e [] (n + 1) = decide (e = .overflow) := rfl
      have hnone : firstIds dictionaryLen [] (n + 1) = none := rfl
      rw [hreport,hnone,ScanEnds]
      rcases nonNullRuns_last dictionaryLen rowOffset (data.length - pos + fuel) matcher p hrow hrun with ⟨he,hf⟩ | ⟨he,hout⟩
      · rw [if_pos (decide_eq_true he)]
        exact hf
      · rw [if_neg (mt of_decide_eq_true he)]
        exact ⟨p.out,hout⟩
  | @more pos pos' run runs e hrun hrest ih =>
    obtain ⟨fuel,rfl⟩ := Nat.exists_eq_add_of_lt hfuel
    have hpos := runAt_lt hrun
    have hfuel' : data.length - pos' < data.length - pos + fuel := by omega
    cases n with
    | zero =>
      rw [firstIds_zero]
      exact ⟨p,by simpa using h,nonNullRuns_done hn⟩
    | succ n =>
      have hrow : row < values ∧ row < rows := by omega
      have hleft : min values rows - row = n + 1 := by omega
      -- what the rest of the runs comes to, when the ids of this one select rows
      have hnext (p₁ : PendingRuns) (hknown : run.known dictionaryLen (n + 1) = true)
          (hafter : p₁.After initial (seen ++ markedFrom (rowOffset + row) ((run.ids.take (n + 1)).map matcher.contains))
            (rowOffset + (row + min run.ids.length (n + 1))))
          (heq : nonNullRuns dictionaryLen rowOffset data w values rows matcher (data.length - pos + fuel + 1) pos row row p =
            nonNullRuns dictionaryLen rowOffset data w values rows matcher (data.length - pos + fuel) pos'
              (row + min run.ids.length (n + 1)) (row + min run.ids.length (n + 1)) p₁) :
          ScanEnds initial seen matcher.contains (rowOffset + row) (n + 1) (values = rows)
            (reportedRuns w dictionaryLen e (run :: runs) (n + 1))
            (nonNullRuns dictionaryLen rowOffset data w values rows matcher (data.length - pos + fuel + 1) pos row row p)
            (firstIds dictionaryLen (run :: runs) (n + 1)) := by
        have hrow' : row + min run.ids.length (n + 1) + (n + 1 - run.ids.length) = min values rows := by omega
        have hlen : ((run.ids.take (n + 1)).map matcher.contains).length = min run.ids.length (n + 1) := by
          rw [List.length_map,List.length_take,Nat.min_comm]
        have hstart : rowOffset + row + min run.ids.length (n + 1) = rowOffset + (row + min run.ids.length (n + 1)) :=
          Nat.add_assoc ..
        have hstop : rowOffset + (row + min run.ids.length (n + 1)) + (n + 1 - run.ids.length) = rowOffset + row + (n + 1) := by
          omega
        have hout := ih hfuel' hafter hrow'
        rw [heq,firstIds,if_pos hknown,reportedRuns_known hknown]
        cases hids : firstIds dictionaryLen runs (n + 1 - run.ids.length) with
        | none =>
          rw [hids] at hout
          exact hout
        | some ids =>
          rw [hids,ScanEnds,hstop] at hout
          obtain ⟨p',hafter',hout⟩ := hout
          refine ⟨p',?_,hout⟩
          rw [List.map_append,markedFrom_append,hlen,hstart,← List.append_assoc]
          exact hafter'
      cases run with
      | repeated len id =>
        by_cases hid : dictionaryLen ≤ id
        · have hknown : ¬PageRun.known dictionaryLen (n + 1) (.repeated len id) = true :=
            mt of_decide_eq_true (Nat.not_lt.mpr hid)
          rw [firstIds,if_neg hknown,reportedRuns_repeated hknown,nonNullRuns_repeated hrow hrun,if_pos hid]
          exact ⟨p.out,rfl⟩
        · have hids : ((PageRun.repeated len id).ids.take (n + 1)).map matcher.contains =
              List.replicate (min len (n + 1)) (matcher.contains id) := by
            rw [PageRun.ids,List.take_replicate,List.map_replicate,Nat.min_comm]
          refine hnext (if matcher.contains id then p.select (rowOffset + row) (min len (n + 1)) else p.close)
            (decide_eq_true (Nat.not_le.mp hid)) ?_ ((nonNullRuns_repeated hrow hrun).trans ?_)
          · rw [hids,PageRun.ids,List.length_replicate,← Nat.add_assoc]
            split_ifs with hcontains
            · rw [hcontains,markedFrom_all fun flag hflag => List.eq_of_mem_replicate hflag,List.length_replicate]
              exact h.select _
            · rw [markedFrom_none fun flag hflag => (List.eq_of_mem_replicate hflag).trans (Bool.eq_false_iff.mpr hcontains),
                List.append_nil]
              exact h.close _
          · rw [if_neg hid,hleft,PageRun.ids,List.length_replicate]
      | packed ids =>
        obtain ⟨start,hids,hinside,hstep⟩ := nonNullRuns_packed dictionaryLen rowOffset (data.length - pos + fuel) matcher p hrow hrun
        rw [hleft] at hstep
        have htake : bitFields (leNat data) w (8 * start) (min ids.length (n + 1)) = ids.take (n + 1) := by
          rw [← bitFields_take _ _ _ (Nat.min_le_left ..),← hids,List.take_eq_take_iff]
          omega
        have hbits : 8 * start + min ids.length (n + 1) * w ≤ 8 * pos' :=
          (Nat.add_le_add_left (Nat.mul_le_mul_right _ (Nat.min_le_left ..)) _).trans hinside
        have hscan := packedBlocks_scan data dictionaryLen matcher (fun _ => Nat.mul_mod_right 8 start) hbits le_rfl h
        rw [htake] at hscan
        rcases hscan with ⟨hall,p',hp',hafter⟩ | ⟨hsome,hp'⟩
        · refine hnext p' (List.all_eq_true.mpr fun id hid => decide_eq_true (hall id hid)) (Nat.add_assoc _ _ _ ▸ hafter) ?_
          rw [hstep,hp']
          rfl
        · have hknown : ¬PageRun.known dictionaryLen (n + 1) (.packed ids) = true := fun h =>
            hsome fun id hid => of_decide_eq_true (List.all_eq_true.mp h id hid)
          rw [firstIds,if_neg hknown,reportedRuns_packed hknown,hstep]
          dsimp only [ScanEnds]
          split_ifs at hp' ⊢ with hreport
          · rw [hp']
            exact ⟨_,rfl⟩
          · obtain ⟨p',hp'⟩ := hp'
            rw [hp']
            exact ⟨p'.out,rfl⟩

end Dodam.Storage

/-! ## Pages with definition levels

The scan goes through the levels and takes an id for every row that has a value.
The ids come in blocks, so those of a block that fails are not available, even
when the rows need only the ones before the fault.
-/
namespace Dodam.Storage
open Foundation Execution SimpleRleBitpackedDecoder

def availableIds (e : RunsEnd) (ids : List ℕ) : List ℕ :=
  if e = .finished then ids else ids.take (dictionaryIdBlock * (ids.length / dictionaryIdBlock))

/-- The scan ends with an error: for a block that fails, or a level that is missing. -/
def reportedBlocks (dictionaryLen : ℕ) (e : RunsEnd) (available : List ℕ) (present : ℕ) (short : Bool) : Bool :=
  (available.take present).all (· < dictionaryLen) && if present ≤ available.length then short else e ≠ .finished

section Available
variable {e : RunsEnd} {ids : List ℕ}

theorem availableIds_block (h : dictionaryIdBlock ≤ ids.length ∨ e = .finished) :
    availableIds e ids = ids.take dictionaryIdBlock ++ availableIds e (ids.drop dictionaryIdBlock) := by
  rw [availableIds,availableIds]
  split_ifs with he
  · rw [List.take_append_drop]
  · obtain ⟨n,hn⟩ := Nat.exists_eq_add_of_le (h.resolve_right he)
    have hturns : dictionaryIdBlock * (ids.length / dictionaryIdBlock) =
        dictionaryIdBlock + dictionaryIdBlock * (n / dictionaryIdBlock) := by
      rw [hn,Nat.add_div_left n (by decide : 0 < dictionaryIdBlock),Nat.mul_succ,Nat.add_comm]
    rw [hturns,List.take_add,List.length_drop,hn,Nat.add_sub_cancel_left]

theorem availableIds_prefix (e : RunsEnd) (ids : List ℕ) : availableIds e ids <+: ids := by
  rw [availableIds]
  split_ifs
  · exact List.prefix_rfl
  · exact List.take_prefix _ _

theorem nextBlockId_streams {d : SimpleRleBitpackedDecoder} (h : d.Streams ids e) (block : List ℕ) :
    match block ++ availableIds e ids with
    | [] => if e = .finished then nextBlockId d block = .ok none else ∃ f, nextBlockId d block = .error f
    | id :: rest => ∃ block' d' ids', nextBlockId d block = .ok (some (id,block',d')) ∧ d'.Streams ids' e ∧
        rest = block' ++ availableIds e ids' := by
  cases block with
  | cons id block => exact ⟨block,d,ids,rfl,h,rfl⟩
  | nil =>
    rw [List.nil_append]
    rcases h.decodeBlock with ⟨hlen,he,f,hf⟩ | ⟨hmore,d',hd',hrest⟩
    · have hnone : availableIds e ids = [] := by
        rw [availableIds,if_neg he,Nat.div_eq_of_lt hlen,Nat.mul_zero,List.take_zero]
      rw [hnone]
      rw [if_neg he,nextBlockId,hf]
      exact ⟨f,rfl⟩
    · rw [availableIds_block hmore,nextBlockId,hd']
      cases hblock : ids.take dictionaryIdBlock with
      | cons id block => exact ⟨block,d',_,rfl,hrest,rfl⟩
      | nil =>
        -- an empty block is the end of the data
        have hnil : ids = [] := (List.take_eq_nil_iff.mp hblock).resolve_left (by decide)
        subst hnil
        have he : e = .finished := hmore.resolve_left (by decide)
        subst he
        rfl

end Available

section Rows
variable {dictionaryLen rowOffset values : ℕ} {levels : List ℤ} {maxLevel : ℤ} {selected : List Bool} {e : RunsEnd}
  {initial : SelectedRuns}

/-- What the scan of rows from `start` on comes to: an error when a fault is reported; otherwise the
rows of the flags are selected if all ids are found, and if their number agrees. -/
def RowsEnd (initial : SelectedRuns) (seen : List ℕ) (start : ℕ) (flags : List Bool) (found agree reported : Prop)
    (out : Result SelectedRuns) : Prop :=
  (reported → ∃ f, out = .error f) ∧
  (¬reported → ∃ s, out = .ok s) ∧
  (¬reported → found → ∃ p : PendingRuns, p.After initial (seen ++ markedFrom start flags) (start + flags.length) ∧
    (agree → out = .ok p.close.out))

theorem RowsEnd.cons {seen : List ℕ} {start : ℕ} {flag : Bool} {flags : List Bool} {found agree reported found' agree' reported' : Prop}
    {out : Result SelectedRuns} (h : RowsEnd initial (seen ++ markedFrom start [flag]) (start + 1) flags found agree reported out)
    (hfound : found' → found) (hagree : agree' ↔ agree) (hreported : reported' ↔ reported) :
    RowsEnd initial seen start (flag :: flags) found' agree' reported' out := by
  obtain ⟨herror,hok,hall⟩ := h
  refine ⟨fun h => herror (hreported.mp h),fun h => hok (mt hreported.mpr h),fun h hf => ?_⟩
  obtain ⟨p,hafter,hout⟩ := hall (mt hreported.mpr h) (hfound hf)
  refine ⟨p,?_,fun h => hout (hagree.mp h)⟩
  have hmarks : markedFrom start (flag :: flags) = markedFrom start [flag] ++ markedFrom (start + 1) flags :=
    markedFrom_append start [flag] flags
  rw [hmarks,← List.append_assoc,List.length_cons,Nat.add_comm flags.length,← Nat.add_assoc]
  exact hafter

theorem reportedBlocks_cons {id present : ℕ} {rest : List ℕ} {short : Bool} (h : id < dictionaryLen) :
    reportedBlocks dictionaryLen e (id :: rest) (present + 1) short = reportedBlocks dictionaryLen e rest present short := by
  have hle : present + 1 ≤ (id :: rest).length ↔ present ≤ rest.length := Nat.succ_le_succ_iff
  simp only [reportedBlocks,List.take_succ_cons,List.all_cons,h,decide_true,Bool.true_and,hle]

/-- The scan from some row on, with `left` rows left. -/
theorem nullableRows_scan {left row : ℕ} (valueIndex : ℕ) {d : SimpleRleBitpackedDecoder} {block ids available seen : List ℕ}
    {p : PendingRuns} {present : List Bool} (h : d.Streams ids e) (havailable : block ++ availableIds e ids = available)
    (hpresent : ((levels.drop row).take left).map (· == maxLevel) = present) (hafter : p.After initial seen (rowOffset + row))
    (hrow : row ≤ levels.length) :
    RowsEnd initial seen (rowOffset + row) (selectedFlags selected present available)
      (present.count true ≤ available.length ∧ ∀ id ∈ available.take (present.count true), id < dictionaryLen)
      (valueIndex + present.count true = values)
      (reportedBlocks dictionaryLen e available (present.count true) (levels.length < row + left) = true)
      (nullableRows dictionaryLen rowOffset values levels maxLevel selected left row d block valueIndex p) := by
  induction left generalizing row valueIndex d block ids available seen p present with
  | zero =>
    rw [List.take_zero,List.map_nil] at hpresent
    subst hpresent
    have hreport : ¬reportedBlocks dictionaryLen e available 0 (levels.length < row + 0) = true := by
      rw [reportedBlocks,Nat.add_zero,decide_eq_false (Nat.not_lt.mpr hrow),if_pos (Nat.zero_le _),Bool.and_false]
      exact Bool.false_ne_true
    rw [List.count_nil,nullableRows]
    refine ⟨fun h => absurd h hreport,fun _ => ?_,fun _ _ => ⟨p,by simpa [selectedFlags,rowIds] using hafter,fun hagree => ?_⟩⟩
    · split_ifs
      · exact ⟨_,rfl⟩
      · exact ⟨_,rfl⟩
    · exact if_neg (not_not.mpr hagree)
  | succ left ih =>
    rcases Nat.lt_or_eq_of_le hrow with hlt | rfl
    · rw [List.drop_eq_getElem_cons hlt,List.take_succ_cons,List.map_cons] at hpresent
      have hlevel : levels[row]? = some levels[row] := List.getElem?_eq_getElem hlt
      have hlength : row + 1 + left = row + (left + 1) := by omega
      rw [nullableRows]
      simp only [hlevel]
      by_cases hmax : levels[row] = maxLevel
      · -- the row has a value
        rw [hmax,beq_self_eq_true] at hpresent
        subst hpresent
        rw [if_pos hmax,List.count_cons_self]
        have hnext := nextBlockId_streams h block
        rw [havailable] at hnext
        cases available with
        | nil =>
          refine ⟨fun hreport => ?_,fun hreport => ?_,fun _ hfound => absurd hfound.1 (Nat.not_succ_le_zero _)⟩
          · have he : ¬e = .finished := by simpa [reportedBlocks] using hreport
            rw [if_neg he] at hnext
            obtain ⟨f,hf⟩ := hnext
            rw [hf]
            exact ⟨f,rfl⟩
          · have he : e = .finished := by simpa [reportedBlocks] using hreport
            rw [if_pos he] at hnext
            rw [hnext]
            exact ⟨p.out,rfl⟩
        | cons id rest =>
          obtain ⟨block',d',ids',hnext,hstreams,hrest⟩ := hnext
          rw [hnext]
          simp only [Except.bind]
          by_cases hid : dictionaryLen ≤ id
          · rw [if_pos hid]
            refine ⟨fun hreport => ?_,fun _ => ⟨p.out,rfl⟩,fun _ hfound => ?_⟩
            · rw [reportedBlocks,List.take_succ_cons,List.all_cons,decide_eq_false (Nat.not_lt.mpr hid)] at hreport
              exact absurd hreport Bool.false_ne_true
            · exact absurd (hfound.2 id List.mem_cons_self) (Nat.not_lt.mpr hid)
          · have hselect : (if flagAt selected id then p.select (rowOffset + row) 1 else p.close).After initial
                (seen ++ markedFrom (rowOffset + row) [flagAt selected id]) (rowOffset + (row + 1)) := by
              split_ifs with hflag
              · rw [hflag]
                exact hafter.select 1
              · rw [Bool.eq_false_iff.mpr hflag]
                simpa [markedFrom] using hafter.close (rowOffset + (row + 1))
            have hscan := ih (valueIndex + 1) hstreams hrest.symm rfl hselect hlt
            rw [if_neg hid,reportedBlocks_cons (Nat.not_le.mp hid)]
            rw [hlength] at hscan
            refine hscan.cons (fun hfound => ⟨Nat.le_of_succ_le_succ hfound.1,fun id hid =>
              hfound.2 id (List.mem_cons_of_mem _ hid)⟩) ?_ Iff.rfl
            omega
      · have hne : (levels[row] == maxLevel) = false := beq_eq_false_iff_ne.mpr hmax
        rw [hne] at hpresent
        subst hpresent
        have hclose : p.close.After initial (seen ++ markedFrom (rowOffset + row) [false]) (rowOffset + (row + 1)) := by
          simpa [markedFrom] using hafter.close (rowOffset + (row + 1))
        have hscan := ih valueIndex h havailable rfl hclose hlt
        rw [hlength] at hscan
        rw [if_neg hmax,List.count_cons_of_ne Bool.false_ne_true]
        exact hscan.cons id Iff.rfl Iff.rfl
    · -- a level is missing
      rw [List.drop_length,List.take_nil,List.map_nil] at hpresent
      subst hpresent
      have hreport : reportedBlocks dictionaryLen e available 0 (levels.length < levels.length + (left + 1)) = true := by
        rw [reportedBlocks,decide_eq_true (by omega),if_pos (Nat.zero_le _),List.take_zero]
        rfl
      rw [List.count_nil,nullableRows]
      simp only [List.getElem?_length]
      exact ⟨fun _ => ⟨_,rfl⟩,fun h => absurd hreport h,fun h => absurd hreport h⟩

end Rows
end Dodam.Storage
