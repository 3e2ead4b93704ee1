import Dodam.Storage.RleDecoderCorrect

/-! # The runs of arbitrary bytes

What the bytes of a page body hold, well formed or not: runs up to where the bytes end or cannot
be read.
-/
namespace Dodam.Storage
open Foundation Execution

/-- A repeated value, or values side by side. -/
inductive PageRun
  | repeated (len id : ℕ)
  | packed (ids : List ℕ)

def PageRun.ids : PageRun → List ℕ
  | .repeated len id => List.replicate len id
  | .packed ids => ids

/-- The bytes are used up, a header has too many of them, or a run is longer than they are. -/
inductive RunsEnd
  | finished
  | overflow
  | truncated
deriving DecidableEq

section Runs
variable (w : ℕ) (data : List UInt8)

/-- The run at a position and the position behind it. -/
def runAt (pos : ℕ) : Except RunsEnd (PageRun × ℕ) :=
  match readHybridVarint data pos with
  | .error _ => .error .overflow
  | .ok (none,_) => .error .finished
  | .ok (some header,pos) =>
    if header &&& 1 = 0 then
      let bytes := (w + 7) / 8
      if data.length < pos + bytes then .error .truncated
      else .ok (.repeated (header >>> 1) (leNat ((data.drop pos).take bytes)),pos + bytes)
    else
      let count := header >>> 1 * 8
      let bytes := (count * w + 7) / 8
      if data.length < pos + bytes then .error .truncated
      else .ok (.packed (bitFields (leNat data) w (8 * pos) count),pos + bytes)

/-- Every run takes a byte, so as many turns as bytes are enough. -/
def pageRunsFrom : ℕ → ℕ → List PageRun × RunsEnd
  | 0, _ => ([],.finished)
  | fuel + 1, pos =>
    match runAt w data pos with
    | .error e => ([],e)
    | .ok (run,pos) =>
      let (runs,e) := pageRunsFrom fuel pos
      (run :: runs,e)

def pageRuns : List PageRun × RunsEnd := pageRunsFrom w data (data.length + 1) 0

inductive RunsAt : ℕ → List PageRun → RunsEnd → Prop
  | last {pos : ℕ} {e : RunsEnd} (h : runAt w data pos = .error e) : RunsAt pos [] e
  | more {pos pos' : ℕ} {run : PageRun} {runs : List PageRun} {e : RunsEnd} (h : runAt w data pos = .ok (run,pos'))
      (rest : RunsAt pos' runs e) : RunsAt pos (run :: runs) e

end Runs

section Positions
variable {w pos pos' : ℕ} {data : List UInt8}

theorem readVarintFrom_some {bytes : List UInt8} {shift value n : ℕ}
    (h : readVarintFrom bytes pos shift value = .ok (some n,pos')) : pos < pos' ∧ pos' ≤ pos + bytes.length := by
  induction bytes generalizing pos shift value with
  | nil => cases h
  | cons b bytes ih =>
    rw [readVarintFrom] at h
    rw [List.length_cons]
    split_ifs at h
    · cases h
      omega
    · cases h
    · have := ih h
      omega

theorem readVarintFrom_none {bytes : List UInt8} {shift value : ℕ}
    (h : readVarintFrom bytes pos shift value = .ok (none,pos')) : pos' = pos + bytes.length := by
  induction bytes generalizing pos shift value with
  | nil =>
    cases h
    rfl
  | cons b bytes ih =>
    rw [readVarintFrom] at h
    rw [List.length_cons]
    split_ifs at h
    · cases h
    · cases h
    · rw [ih h]
      omega

theorem readHybridVarint_some {n : ℕ} (h : readHybridVarint data pos = .ok (some n,pos')) :
    pos < pos' ∧ pos' ≤ data.length := by
  have hread := readVarintFrom_some h
  rw [List.length_drop] at hread
  omega

theorem readHybridVarint_none (h : readHybridVarint data pos = .ok (none,pos')) : data.drop pos' = [] := by
  have hread := readVarintFrom_none h
  rw [List.length_drop] at hread
  exact List.drop_eq_nil_of_le (by omega)

theorem runAt_lt {run : PageRun} (h : runAt w data pos = .ok (run,pos')) : pos < pos' ∧ pos' ≤ data.length := by
  rw [runAt] at h
  split at h
  · cases h
  · cases h
  · next header start hheader =>
    have hstart := readHybridVarint_some hheader
    dsimp only at h
    split_ifs at h with heven hfits hfits
    · cases h
      omega
    · cases h
      omega

theorem runsAt_pageRunsFrom {fuel : ℕ} (hfuel : data.length - pos < fuel) :
    RunsAt w data pos (pageRunsFrom w data fuel pos).1 (pageRunsFrom w data fuel pos).2 := by
  induction fuel generalizing pos with
  | zero => exact absurd hfuel (Nat.not_lt_zero _)
  | succ fuel ih =>
    rw [pageRunsFrom]
    cases hrun : runAt w data pos with
    | error e => exact .last hrun
    | ok found =>
      obtain ⟨run,pos'⟩ := found
      have hpos := runAt_lt hrun
      exact .more hrun (ih (by omega))

theorem runsAt_pageRuns (w : ℕ) (data : List UInt8) : RunsAt w data 0 (pageRuns w data).1 (pageRuns w data).2 :=
  runsAt_pageRunsFrom (Nat.lt_succ_of_le (Nat.sub_le ..))

theorem RunsAt.unique {runs runs' : List PageRun} {e e' : RunsEnd} (h : RunsAt w data pos runs e)
    (h' : RunsAt w data pos runs' e') : runs = runs' ∧ e = e' := by
  induction h generalizing runs' e' with
  | last hrun =>
    cases h' with
    | last hrun' => exact ⟨rfl,Except.error.inj (hrun.symm.trans hrun')⟩
    | more hrun' _ => cases hrun.symm.trans hrun'
  | more hrun _ ih =>
    cases h' with
    | last hrun' => cases hrun.symm.trans hrun'
    | more hrun' hrest =>
      cases Except.ok.inj (hrun.symm.trans hrun')
      obtain ⟨rfl,rfl⟩ := ih hrest
      exact ⟨rfl,rfl⟩

end Positions

section WellFormed
variable {w : ℕ} {data : List UInt8}

theorem runAt_repeated {header value rest : List UInt8} {pos n : ℕ} (hheader : HeaderBytes (2 * n) header)
    (hlen : value.length = (w + 7) / 8) (hdata : data.drop pos = header ++ (value ++ rest)) :
    runAt w data pos = .ok (.repeated n (leNat value),pos + header.length + value.length) := by
  obtain ⟨hvalue,-,hlength⟩ := SimpleRleBitpackedDecoder.drop_header hdata
  have hpos := List.length_pos_iff.mpr hheader.varint.ne_nil
  have heven : 2 * n &&& 1 = 0 := by
    rw [Nat.and_one_is_mod]
    omega
  have hhalf : (2 * n) >>> 1 = n := by
    rw [Nat.shiftRight_eq_div_pow]
    omega
  have hfits : ¬data.length < pos + header.length + value.length := by omega
  rw [runAt,readHybridVarint_eq hheader hdata]
  simp only [heven,if_true,hhalf,hvalue,← hlen,List.take_left,if_neg hfits]

theorem runAt_packed {header groups rest : List UInt8} {pos n : ℕ} (hheader : HeaderBytes (2 * n + 1) header)
    (hlen : groups.length = n * w) (hdata : data.drop pos = header ++ (groups ++ rest)) :
    runAt w data pos = .ok (.packed (bitFields (leNat groups) w 0 (8 * n)),pos + header.length + groups.length) := by
  obtain ⟨hgroups,-,hlength⟩ := SimpleRleBitpackedDecoder.drop_header hdata
  have hpos := List.length_pos_iff.mpr hheader.varint.ne_nil
  have hodd : ¬(2 * n + 1) &&& 1 = 0 := by
    rw [Nat.and_one_is_mod]
    omega
  have hhalf : (2 * n + 1) >>> 1 = n := by
    rw [Nat.shiftRight_eq_div_pow]
    omega
  have hmul : n * 8 * w = 8 * groups.length := by
    rw [hlen]
    ring
  have hceil : (n * 8 * w + 7) / 8 = groups.length := by omega
  have hfits : ¬data.length < pos + header.length + groups.length := by omega
  rw [runAt,readHybridVarint_eq hheader hdata]
  simp only [hodd,if_false,hhalf,hceil,if_neg hfits]
  rw [Nat.mul_comm 8 n,SimpleRleBitpackedDecoder.bitFields_slice hlen hgroups,Nat.mul_comm 8 (pos + header.length)]

theorem runsAt_of_hybridRuns {bytes : List UInt8} {values : List ℕ} (h : HybridRuns w bytes values) {pos : ℕ}
    (hdata : data.drop pos = bytes) :
    ∃ runs, RunsAt w data pos runs .finished ∧ runs.flatMap PageRun.ids = values ∧
      ∀ len id, PageRun.repeated len id ∈ runs → 0 < len := by
  induction h generalizing pos with
  | nil =>
    refine ⟨[],.last ?_,rfl,nofun⟩
    rw [runAt,readHybridVarint_end hdata]
  | @cons run bytes values rest hrun hrest ih =>
    cases hrun with
    | @repeated header value n hheader hn hlen hvalue =>
      rw [List.append_assoc] at hdata
      obtain ⟨-,hafter,-⟩ := SimpleRleBitpackedDecoder.drop_header hdata
      obtain ⟨runs,hruns,hids,hpos⟩ := ih hafter
      refine ⟨_,.more (runAt_repeated hheader hlen hdata) hruns,?_,fun len id hmem => ?_⟩
      · rw [List.flatMap_cons,hids,PageRun.ids]
      · rcases List.mem_cons.mp hmem with heq | hmem
        · cases heq
          exact hn
        · exact hpos len id hmem
    | @packed header groups n hheader hlen =>
      rw [List.append_assoc] at hdata
      obtain ⟨-,hafter,-⟩ := SimpleRleBitpackedDecoder.drop_header hdata
      obtain ⟨runs,hruns,hids,hpos⟩ := ih hafter
      refine ⟨_,.more (runAt_packed hheader hlen hdata) hruns,?_,fun len id hmem => ?_⟩
      · rw [List.flatMap_cons,hids,PageRun.ids]
      · rcases List.mem_cons.mp hmem with heq | hmem
        · cases heq
        · exact hpos len id hmem

end WellFormed

namespace SimpleRleBitpackedDecoder
variable {d : SimpleRleBitpackedDecoder} {ids : List ℕ} {e : RunsEnd}

/-- The ids that are still to come, before the bytes end in some way. -/
abbrev Streams (d : SimpleRleBitpackedDecoder) (ids : List ℕ) (e : RunsEnd) : Prop :=
  d.Ahead (fun data w pos tail => ∃ runs, RunsAt w data pos runs e ∧ tail = runs.flatMap PageRun.ids) ids

theorem streams_new {data : List UInt8} {w : ℕ} (hw : w ≤ 32) :
    (new data w).Streams ((pageRuns w data).1.flatMap PageRun.ids) (pageRuns w data).2 :=
  ⟨hw,fun h => absurd h (Nat.lt_irrefl 0),_,⟨_,runsAt_pageRuns w data,rfl⟩,rfl⟩

/-- Between runs the next one is loaded, or the bytes end. -/
theorem Ahead.reloadRun (h : d.Streams ids e) (hrle : d.rleRemaining = 0) (hbits : d.bitpackRemaining = 0) :
    (ids = [] ∧ e = .finished ∧ ∃ d', d.reloadRun = .ok (false,d') ∧ d'.Streams [] .finished) ∨
      (ids = [] ∧ e ≠ .finished ∧ ∃ f, d.reloadRun = .error f) ∨
      ∃ d', d.reloadRun = .ok (true,d') ∧ d'.Streams ids e ∧ d'.bytesLeft < d.bytesLeft := by
  obtain ⟨tail,⟨runs,hruns,rfl⟩,hids⟩ := h.runs
  have hloaded : d.loaded = [] := by
    rw [loaded,hrle,hbits]
    rfl
  have hnext : d.nextRun = d.pos := if_pos hbits
  rw [hloaded,List.nil_append] at hids
  rw [hnext] at hruns
  subst hids
  cases hruns with
  | last hrun =>
    rw [runAt] at hrun
    split at hrun
    · next f hheader =>
      cases hrun
      refine .inr (.inl ⟨rfl,by decide,f,?_⟩)
      rw [SimpleRleBitpackedDecoder.reloadRun,hheader]
      rfl
    · next pos hheader =>
      cases hrun
      refine .inl ⟨rfl,rfl,{ d with pos := pos },?_,h.width,h.inside,[],⟨[],.last ?_,rfl⟩,?_⟩
      · rw [SimpleRleBitpackedDecoder.reloadRun,hheader]
        rfl
      · rw [nextRun,if_pos hbits,runAt,readHybridVarint_end (readHybridVarint_none hheader)]
      · exact (List.append_nil _).symm ▸ hloaded.symm
    · next header pos hheader =>
      -- the run is longer than the bytes
      dsimp only at hrun
      split_ifs at hrun with heven hfits hfits
      · cases hrun
        refine .inr (.inl ⟨rfl,by decide,.err (.parquet "not enough data to read parquet rle value"),?_⟩)
        rw [SimpleRleBitpackedDecoder.reloadRun,hheader]
        simp only [Except.bind,heven,if_true,if_pos hfits]
        rfl
      · cases hrun
        refine .inr (.inl ⟨rfl,by decide,.err (.parquet "not enough data to read parquet bit-packed values"),?_⟩)
        rw [SimpleRleBitpackedDecoder.reloadRun,hheader]
        simp only [Except.bind,heven,if_false,if_pos hfits]
        rfl
  | @more _ pos' run runs _ hrun hrest =>
    refine .inr (.inr ?_)
    have hpos := runAt_lt hrun
    rw [runAt] at hrun
    split at hrun
    · cases hrun
    · cases hrun
    · next header pos hheader =>
      dsimp only at hrun
      split_ifs at hrun with heven hfits hfits
      · cases hrun
        refine ⟨{ d with
          rleRemaining := header >>> 1
          rleValue := leNat ((d.data.drop pos).take ((d.bitWidth + 7) / 8))
          pos := pos + (d.bitWidth + 7) / 8 },?_,⟨h.width,?_,_,⟨runs,?_,rfl⟩,?_⟩,?_⟩
        · rw [SimpleRleBitpackedDecoder.reloadRun,hheader]
          simp only [Except.bind,heven,if_true,if_neg hfits,leWord_eq_leNat]
        · exact fun h => absurd (hbits ▸ h) (Nat.lt_irrefl 0)
        · simpa only [nextRun,hbits,if_true] using hrest
        · simp only [loaded,hbits,bitFields,List.append_nil,List.flatMap_cons,PageRun.ids]
        · simp only [bytesLeft,nextRun,hbits,if_true]
          omega
      · cases hrun
        refine ⟨{ d with
          pos := pos
          bitpackRemaining := header >>> 1 * 8
          bitpackBitOffset := pos * 8
          bitpackEnd := pos + (header >>> 1 * 8 * d.bitWidth + 7) / 8 },?_,⟨h.width,?_,_,⟨runs,?_,rfl⟩,?_⟩,?_⟩
        · rw [SimpleRleBitpackedDecoder.reloadRun,hheader]
          simp only [Except.bind,heven,if_false,if_neg hfits]
        · intro _
          simp only
          omega
        · have hnext' : (if header >>> 1 * 8 = 0 then pos else pos + (header >>> 1 * 8 * d.bitWidth + 7) / 8) =
              pos + (header >>> 1 * 8 * d.bitWidth + 7) / 8 := by
            split_ifs with hzero
            · rw [hzero,Nat.zero_mul]
              rfl
            · rfl
          simpa only [nextRun,hnext'] using hrest
        · simp only [loaded,hrle,List.replicate_zero,List.nil_append,List.flatMap_cons,PageRun.ids,Nat.mul_comm 8 pos]
        · have hstart := readHybridVarint_some hheader
          simp only [bytesLeft,nextRun,hbits,if_true]
          split_ifs
          · omega
          · omega

theorem nextValueLoop_streams {fuel : ℕ} (h : d.Streams ids e) (hfuel : d.bytesLeft < fuel) :
    (ids = [] ∧ e ≠ .finished ∧ ∃ f, nextValueLoop fuel d = .error f) ∨
      ((ids ≠ [] ∨ e = .finished) ∧ ∃ d', nextValueLoop fuel d = .ok (ids.head?,d') ∧ d'.Streams ids.tail e) := by
  induction fuel generalizing d with
  | zero => exact absurd hfuel (Nat.not_lt_zero _)
  | succ fuel ih =>
    rw [nextValueLoop]
    split_ifs with hrle hbits
    · obtain ⟨htake,hrest⟩ := h.takeRepeated hrle
      obtain ⟨hhead,htail⟩ := head?_of_take_one htake
      rw [hhead,htail]
      exact .inr ⟨.inl fun hnil => by simp [hnil] at hhead,_,rfl,hrest⟩
    · obtain ⟨htake,hrest⟩ := h.takePacked (Nat.eq_zero_of_not_pos hrle) hbits hbits
      obtain ⟨hhead,htail⟩ := head?_of_take_one htake
      rw [hhead,htail,readBitpackedValue_eq h.width (Nat.one_mul d.bitWidth ▸ h.inside_le hbits hbits)]
      exact .inr ⟨.inl fun hnil => by simp [hnil] at hhead,_,rfl,hrest⟩
    · rcases h.reloadRun (Nat.eq_zero_of_not_pos hrle) (Nat.eq_zero_of_not_pos hbits) with
        ⟨rfl,rfl,d',hd',hrest⟩ | ⟨rfl,he,f,hf⟩ | ⟨d',hd',hrest,hlt⟩
      · rw [hd']
        exact .inr ⟨.inr rfl,d',rfl,hrest⟩
      · rw [hf]
        exact .inl ⟨rfl,he,f,rfl⟩
      · rw [hd']
        exact ih hrest (by omega)

theorem decodeNextBlockLoop_streams (h : d.Streams ids e) (count : ℕ) :
    (ids.length < count ∧ e ≠ .finished ∧ ∃ f, decodeNextBlockLoop count d = .error f) ∨
      ((count ≤ ids.length ∨ e = .finished) ∧
        ∃ d', decodeNextBlockLoop count d = .ok (ids.take count,d') ∧ d'.Streams (ids.drop count) e) := by
  induction count generalizing d ids with
  | zero => exact .inr ⟨.inl (Nat.zero_le _),d,rfl,h⟩
  | succ count ih =>
    rw [decodeNextBlockLoop]
    rcases nextValueLoop_streams h (Nat.lt_succ_of_le d.bytesLeft_le) with ⟨rfl,he,f,hf⟩ | ⟨hmore,d',hd',hrest⟩
    · rw [SimpleRleBitpackedDecoder.nextValue,hf]
      exact .inl ⟨Nat.succ_pos _,he,f,rfl⟩
    · rw [SimpleRleBitpackedDecoder.nextValue,hd']
      cases ids with
      | nil => exact .inr ⟨.inr (hmore.resolve_left fun hne => hne rfl),d',rfl,hrest⟩
      | cons id ids =>
        rcases ih hrest with ⟨hlen,he,f,hf⟩ | ⟨hmore,d'',hd'',hrest⟩
        · refine .inl ⟨Nat.succ_lt_succ hlen,he,f,?_⟩
          simp only [Except.bind,List.head?_cons,hf]
          rfl
        · refine .inr ⟨hmore.imp_left Nat.succ_le_succ,d'',?_,hrest⟩
          simp only [Except.bind,List.head?_cons,hd'']
          rfl

theorem Ahead.decodeBlock (h : d.Streams ids e) :
    (ids.length < dictionaryIdBlock ∧ e ≠ .finished ∧ ∃ f, d.decodeNextBlock = .error f) ∨
      ((dictionaryIdBlock ≤ ids.length ∨ e = .finished) ∧
        ∃ d', d.decodeNextBlock = .ok (ids.take dictionaryIdBlock,d') ∧ d'.Streams (ids.drop dictionaryIdBlock) e) :=
  decodeNextBlockLoop_streams h dictionaryIdBlock

end SimpleRleBitpackedDecoder
end Dodam.Storage
