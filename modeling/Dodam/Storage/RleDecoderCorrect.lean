import Dodam.Storage.RleDecoder

/-! # The decoder reads what the runs encode

The values left are those of the run that is loaded and of the runs behind it.
-/
namespace Dodam.Storage
open Foundation Execution

section Varint

theorem toNat_and_0x7f (b : UInt8) : (b &&& 0x7f).toNat = b.toNat % 128 :=
  Nat.and_two_pow_sub_one_eq_mod b.toNat 7

theorem and_0x80_eq_zero {b : UInt8} : b &&& 0x80 = 0 ↔ b.toNat < 128 := by
  have hand : (b &&& 0x80).toNat = (b.toNat.testBit 7).toNat * 2 ^ 7 := Nat.and_two_pow b.toNat 7
  have hb : b.toNat < 256 := b.toNat_lt
  rw [← UInt8.toNat_inj,hand,Nat.testBit_eq_decide_div_mod_eq]
  by_cases h : b.toNat < 128
  · simp [h]
    omega
  · simp [h]
    omega

theorem or_shiftLeft_mod {value shift k : ℕ} (hvalue : value < 2 ^ shift) (hfits : value + k * 2 ^ shift < 2 ^ 64) :
    value ||| k <<< shift % 2 ^ 64 = value + k * 2 ^ shift := by
  have hlt : k <<< shift < 2 ^ 64 := by
    rw [Nat.shiftLeft_eq]
    omega
  rw [Nat.mod_eq_of_lt hlt,Nat.shiftLeft_eq,Nat.or_comm,Nat.mul_comm,← Nat.two_pow_add_eq_or_of_lt hvalue,
    Nat.add_comm]

theorem readVarintFrom_eq {n : ℕ} {bytes : List UInt8} (h : VarintBytes n bytes) (rest : List UInt8)
    {pos shift value : ℕ} (hshort : shift + 7 * bytes.length ≤ 70) (hvalue : value < 2 ^ shift)
    (hfits : value + n * 2 ^ shift < 2 ^ 64) :
    readVarintFrom (bytes ++ rest) pos shift value = .ok (some (value + n * 2 ^ shift),pos + bytes.length) := by
  induction h generalizing pos shift value with
  | @last b hb =>
    have hlow : (b &&& 0x7f).toNat = b.toNat := by rw [toNat_and_0x7f,Nat.mod_eq_of_lt hb]
    rw [List.singleton_append,readVarintFrom,hlow,if_pos (and_0x80_eq_zero.mpr hb),or_shiftLeft_mod hvalue hfits]
    rfl
  | @more b n bytes hb hrest ih =>
    have hlt : b.toNat < 256 := b.toNat_lt
    have hlow : (b &&& 0x7f).toNat = b.toNat - 128 := by
      rw [toNat_and_0x7f]
      omega
    have hlen : 0 < bytes.length := List.length_pos_iff.mpr hrest.ne_nil
    rw [List.length_cons] at hshort
    have hpow : 2 ^ (shift + 7) = 128 * 2 ^ shift := by
      rw [pow_add]
      ring
    have hsplit : value + (b.toNat - 128 + 128 * n) * 2 ^ shift =
        value + (b.toNat - 128) * 2 ^ shift + n * 2 ^ (shift + 7) := by
      rw [hpow]
      ring
    have hnext : value + (b.toNat - 128) * 2 ^ shift < 2 ^ (shift + 7) := by
      have hle : (b.toNat - 128) * 2 ^ shift ≤ 127 * 2 ^ shift := Nat.mul_le_mul_right _ (by omega)
      rw [hpow]
      omega
    rw [hsplit] at hfits
    rw [List.cons_append,readVarintFrom,hlow,if_neg (mt and_0x80_eq_zero.mp (by omega)),if_neg (by omega),
      or_shiftLeft_mod hvalue (by omega),ih (by omega) hnext hfits,hsplit,List.length_cons,Nat.add_right_comm pos,
      ← Nat.add_assoc]

theorem readHybridVarint_eq {n pos : ℕ} {data header rest : List UInt8} (h : HeaderBytes n header)
    (hdata : data.drop pos = header ++ rest) : readHybridVarint data pos = .ok (some n,pos + header.length) := by
  have hlen := h.short
  have hfits := h.fits
  have hread : readVarintFrom (header ++ rest) pos 0 0 = .ok (some (0 + n * 2 ^ 0),pos + header.length) :=
    readVarintFrom_eq h.varint rest (by omega) (by decide) (by omega)
  rw [readHybridVarint,hdata,hread,Nat.zero_add,pow_zero,Nat.mul_one]

theorem readHybridVarint_end {pos : ℕ} {data : List UInt8} (hdata : data.drop pos = []) :
    readHybridVarint data pos = .ok (none,pos) := by
  rw [readHybridVarint,hdata,readVarintFrom]

end Varint

section Lanes
variable (data : List UInt8) (pos : ℕ)

theorem chunksFrom_eq {lanes : ℕ → List ℕ} {n w count stride : ℕ} (hlanes : ∀ pos, lanes pos = bitFields n w (8 * pos) count)
    (hstride : count * w = 8 * stride) (groups : ℕ) :
    chunksFrom lanes stride groups pos = bitFields n w (8 * pos) (groups * count) := by
  induction groups generalizing pos with
  | zero => rw [Nat.zero_mul,chunksFrom,bitFields]
  | succ groups ih =>
    have hcount : (groups + 1) * count = count + groups * count := by rw [Nat.succ_mul,Nat.add_comm]
    rw [chunksFrom,hlanes,ih,hcount,bitFields_add,hstride,Nat.mul_add]

theorem byteAt_eq : byteAt data pos = bitField (leNat data) (8 * pos) 8 := by
  rw [← leNat_slice data pos 1,byteAt]
  rcases Nat.lt_or_ge pos data.length with h | h
  · rw [List.drop_eq_getElem_cons h,List.take_succ_cons,List.take_zero,leNat,leNat,List.getD_eq_getElem _ _ h,Nat.mul_zero,Nat.add_zero]
  · rw [List.drop_eq_nil_of_le h,List.take_nil,leNat,List.getD_eq_default _ _ h]
    rfl

theorem sevenBitLanes_eq : sevenBitLanes data pos = bitFields (leNat data) 7 (8 * pos) 8 := by
  have hfields := bitFields_bitField (n := leNat data) (o := 8 * pos) (s := 0) (w := 7) (k := 8) (m := 56) (by decide)
  have hmask (x s : ℕ) : x >>> s &&& 0x7f = bitField x s 7 := shiftRight_and_mask x s 7
  rw [sevenBitLanes,leWord_eq_leNat,leNat_slice,← Nat.add_zero (8 * pos),← hfields]
  simp only [hmask,bitFields,Nat.zero_add]
  exact congrArg (· :: _) (hmask _ 0)

theorem twelveBitLanes_eq : twelveBitLanes data pos = bitFields (leNat data) 12 (8 * pos) 2 := by
  have hfields := bitFields_bitField (n := leNat data) (o := 8 * pos) (s := 0) (w := 12) (k := 2) (m := 24) (by decide)
  have hword : bitField (leNat data) (8 * pos) 24 =
      byteAt data pos + 256 * byteAt data (pos + 1) + 65536 * byteAt data (pos + 2) := by
    rw [bitField_add _ _ 8 16,bitField_add _ _ 8 8,byteAt_eq,byteAt_eq,byteAt_eq]
    ring
  have h0 : byteAt data pos < 2 ^ 8 := UInt8.toNat_lt _
  have h1 : byteAt data (pos + 1) / 16 < 2 ^ 4 := by
    have : byteAt data (pos + 1) < 256 := UInt8.toNat_lt _
    omega
  have hlow : byteAt data pos ||| byteAt data (pos + 1) % 16 * 2 ^ 8 =
      byteAt data pos + byteAt data (pos + 1) % 16 * 2 ^ 8 := by
    rw [Nat.or_comm,Nat.mul_comm,← Nat.two_pow_add_eq_or_of_lt h0,Nat.add_comm]
  have hhigh : byteAt data (pos + 1) / 16 ||| byteAt data (pos + 2) * 2 ^ 4 =
      byteAt data (pos + 1) / 16 + byteAt data (pos + 2) * 2 ^ 4 := by
    rw [Nat.or_comm,Nat.mul_comm,← Nat.two_pow_add_eq_or_of_lt h1,Nat.add_comm]
  have hmask (x : ℕ) : x &&& 0x0fff = x % 4096 := Nat.and_two_pow_sub_one_eq_mod x 12
  have hnibble (x : ℕ) : x &&& 0x0f = x % 16 := Nat.and_two_pow_sub_one_eq_mod x 4
  have hshift (x : ℕ) : x >>> 4 = x / 16 := Nat.shiftRight_eq_div_pow x 4
  rw [Nat.add_zero] at hfields
  rw [← hfields,hword]
  simp only [twelveBitLanes,bitFields,hmask,hnibble,hshift,Nat.shiftLeft_eq,hlow,hhigh,bitField]
  refine congrArg₂ (fun a b => [a,b]) ?_ ?_
  · omega
  · omega

theorem wholeBytes_eq (count : ℕ) : wholeBytes count data pos = bitFields (leNat data) (8 * count) (8 * pos) 1 := by
  rw [wholeBytes,leNat_slice]
  rfl

theorem map_toNat_eq {len : ℕ} (h : pos + len ≤ data.length) :
    ((data.drop pos).take len).map UInt8.toNat = bitFields (leNat data) 8 (8 * pos) len := by
  induction len generalizing pos with
  | zero => rw [List.take_zero,List.map_nil,bitFields]
  | succ len ih =>
    have hpos : pos < data.length := by omega
    have hrest := ih (pos + 1) (by omega)
    rw [List.drop_eq_getElem_cons hpos,List.take_succ_cons,List.map_cons,hrest,bitFields,← byteAt_eq,byteAt,
      List.getD_eq_getElem _ _ hpos,Nat.mul_add]

theorem widthMask_eq (w : ℕ) : widthMask w = 2 ^ w - 1 := by
  rw [widthMask,Nat.one_shiftLeft]
  split_ifs with h
  · rw [h]
  · rfl

end Lanes

namespace SimpleRleBitpackedDecoder
variable {d : SimpleRleBitpackedDecoder} {values : List ℕ}

/-- Where the run behind the loaded one starts. -/
def nextRun (d : SimpleRleBitpackedDecoder) : ℕ := if d.bitpackRemaining = 0 then d.pos else d.bitpackEnd

/-- The bytes behind the loaded run, which bound the loops. -/
def bytesLeft (d : SimpleRleBitpackedDecoder) : ℕ := d.data.length - d.nextRun

def loaded (d : SimpleRleBitpackedDecoder) : List ℕ :=
  List.replicate d.rleRemaining d.rleValue ++
    bitFields (leNat d.data) d.bitWidth d.bitpackBitOffset d.bitpackRemaining

/-- Bytes of a width hold values from a position on. -/
abbrev HoldsFrom := List UInt8 → ℕ → ℕ → List ℕ → Prop

/-- The values of the loaded run and those behind it. -/
structure Ahead (holds : HoldsFrom) (d : SimpleRleBitpackedDecoder) (values : List ℕ) : Prop where
  width : d.bitWidth ≤ 32
  inside : 0 < d.bitpackRemaining →
    d.bitpackBitOffset + d.bitpackRemaining * d.bitWidth ≤ 8 * d.bitpackEnd ∧ d.bitpackEnd ≤ d.data.length
  runs : ∃ tail, holds d.data d.bitWidth d.nextRun tail ∧ values = d.loaded ++ tail

abbrev Remaining (d : SimpleRleBitpackedDecoder) (values : List ℕ) : Prop :=
  d.Ahead (fun data w pos tail => HybridRuns w (data.drop pos) tail) values

theorem remaining_new {data : List UInt8} {w : ℕ} (hw : w ≤ 32) (h : HybridRuns w data values) :
    (new data w).Remaining values :=
  ⟨hw,fun h => absurd h (Nat.lt_irrefl 0),values,h,rfl⟩

variable {holds : HoldsFrom}

theorem Ahead.takeRepeated (h : d.Ahead holds values) {n : ℕ} (hn : n ≤ d.rleRemaining) :
    values.take n = List.replicate n d.rleValue ∧
      Ahead holds { d with rleRemaining := d.rleRemaining - n } (values.drop n) := by
  obtain ⟨tail,htail,rfl⟩ := h.runs
  have hsplit : List.replicate d.rleRemaining d.rleValue =
      List.replicate n d.rleValue ++ List.replicate (d.rleRemaining - n) d.rleValue := by
    rw [List.replicate_append_replicate,Nat.add_sub_cancel' hn]
  refine ⟨?_,h.width,h.inside,tail,htail,?_⟩
  · rw [loaded,hsplit,List.append_assoc,List.append_assoc,List.take_left' List.length_replicate]
  · rw [loaded,loaded,hsplit,List.append_assoc,List.append_assoc,List.drop_left' List.length_replicate,List.append_assoc]

theorem nextRun_countBitpacked {len : ℕ} (hlen : 0 < d.bitpackRemaining) : (d.countBitpacked len).nextRun = d.nextRun := by
  simp only [nextRun,countBitpacked]
  split_ifs with h h' h'
  · omega
  · rfl
  · omega
  · rfl

/-- The decoder after some values of the bit-packed run. -/
def takeBitpacked (d : SimpleRleBitpackedDecoder) (n : ℕ) : SimpleRleBitpackedDecoder :=
  { d with bitpackBitOffset := d.bitpackBitOffset + n * d.bitWidth }

theorem Ahead.takePacked (h : d.Ahead holds values) (hrle : d.rleRemaining = 0) {n : ℕ}
    (hpos : 0 < d.bitpackRemaining) (hn : n ≤ d.bitpackRemaining) :
    values.take n = bitFields (leNat d.data) d.bitWidth d.bitpackBitOffset n ∧
      ((d.takeBitpacked n).countBitpacked n).Ahead holds (values.drop n) := by
  obtain ⟨tail,htail,rfl⟩ := h.runs
  obtain ⟨m,hm⟩ := Nat.exists_eq_add_of_le hn
  have hloaded : d.loaded = bitFields (leNat d.data) d.bitWidth d.bitpackBitOffset n ++
      bitFields (leNat d.data) d.bitWidth (d.bitpackBitOffset + n * d.bitWidth) m := by
    rw [loaded,hrle,hm,bitFields_add]
    rfl
  have hnext : ((d.takeBitpacked n).countBitpacked n).nextRun = d.nextRun := nextRun_countBitpacked (d := d.takeBitpacked n) hpos
  have hleft : ((d.takeBitpacked n).countBitpacked n).bitpackRemaining = m :=
    (congrArg (· - n) hm).trans (Nat.add_sub_cancel_left ..)
  refine ⟨?_,h.width,fun _ => ?_,tail,?_,?_⟩
  · rw [hloaded,List.append_assoc,List.take_left' (length_bitFields ..)]
  · obtain ⟨hle,hend⟩ := h.inside hpos
    refine ⟨?_,hend⟩
    rw [hm,Nat.add_mul] at hle
    rw [hleft]
    simp only [takeBitpacked,countBitpacked]
    omega
  · rw [hnext]
    exact htail
  · rw [hloaded,List.append_assoc,List.drop_left' (length_bitFields ..),loaded,hleft]
    simp only [takeBitpacked,countBitpacked,hrle,List.replicate_zero,List.nil_append]

theorem drop_header {data header run rest : List UInt8} {pos : ℕ} (h : data.drop pos = header ++ (run ++ rest)) :
    data.drop (pos + header.length) = run ++ rest ∧ data.drop (pos + header.length + run.length) = rest ∧
      data.length - pos = header.length + run.length + rest.length := by
  have hrun : data.drop (pos + header.length) = run ++ rest := by rw [← List.drop_drop,h,List.drop_left]
  refine ⟨hrun,?_,?_⟩
  · rw [← List.drop_drop,hrun,List.drop_left]
  · rw [← List.length_drop,h,List.length_append,List.length_append,Nat.add_assoc]

theorem reloadRun_repeated {header value data : List UInt8} {n : ℕ} (hheader : HeaderBytes (2 * n) header)
    (hlen : value.length = (d.bitWidth + 7) / 8) (hdata : d.data.drop d.pos = header ++ (value ++ data)) :
    d.reloadRun = .ok (true,{ d with
      rleRemaining := n
      rleValue := leNat value
      pos := d.pos + header.length + value.length }) := by
  obtain ⟨hvalue,-,hlength⟩ := drop_header hdata
  have hpos := List.length_pos_iff.mpr hheader.varint.ne_nil
  have heven : 2 * n &&& 1 = 0 := by
    rw [Nat.and_one_is_mod]
    omega
  have hhalf : (2 * n) >>> 1 = n := by
    rw [Nat.shiftRight_eq_div_pow]
    omega
  have hfits : ¬d.data.length < d.pos + header.length + value.length := by omega
  rw [reloadRun,readHybridVarint_eq hheader hdata]
  simp only [Except.bind,heven,if_true,hhalf,leWord_eq_leNat,hvalue,← hlen,List.take_left,if_neg hfits]

theorem reloadRun_packed {header groups data : List UInt8} {n : ℕ} (hheader : HeaderBytes (2 * n + 1) header)
    (hlen : groups.length = n * d.bitWidth) (hdata : d.data.drop d.pos = header ++ (groups ++ data)) :
    d.reloadRun = .ok (true,{ d with
      pos := d.pos + header.length
      bitpackRemaining := n * 8
      bitpackBitOffset := (d.pos + header.length) * 8
      bitpackEnd := d.pos + header.length + groups.length }) := by
  obtain ⟨-,-,hlength⟩ := drop_header hdata
  have hpos := List.length_pos_iff.mpr hheader.varint.ne_nil
  have hodd : ¬(2 * n + 1) &&& 1 = 0 := by
    rw [Nat.and_one_is_mod]
    omega
  have hhalf : (2 * n + 1) >>> 1 = n := by
    rw [Nat.shiftRight_eq_div_pow]
    omega
  have hmul : n * 8 * d.bitWidth = 8 * groups.length := by
    rw [hlen]
    ring
  have hceil : (n * 8 * d.bitWidth + 7) / 8 = groups.length := by omega
  have hfits : ¬d.data.length < d.pos + header.length + groups.length := by omega
  rw [reloadRun,readHybridVarint_eq hheader hdata]
  simp only [Except.bind,hodd,if_false,hhalf,hceil,if_neg hfits]

theorem bitFields_slice {data groups rest : List UInt8} {pos w n : ℕ} (hlen : groups.length = n * w)
    (hdata : data.drop pos = groups ++ rest) :
    bitFields (leNat groups) w 0 (n * 8) = bitFields (leNat data) w (pos * 8) (n * 8) := by
  have htake : groups = (data.drop pos).take groups.length := by rw [hdata,List.take_left]
  have hwidth : 0 + n * 8 * w ≤ 8 * groups.length := by
    rw [hlen,Nat.zero_add,Nat.mul_right_comm,Nat.mul_comm]
  rw [htake,leNat_slice,bitFields_bitField hwidth,Nat.add_zero,Nat.mul_comm 8]

/-- The next run is loaded unless the values are at their end. -/
theorem Remaining.reload (h : d.Remaining values) (hrle : d.rleRemaining = 0) (hbits : d.bitpackRemaining = 0) :
    (values = [] ∧ ∃ d', d.reloadRun = .ok (false,d') ∧ d'.Remaining []) ∨
      ∃ d', d.reloadRun = .ok (true,d') ∧ d'.Remaining values ∧ d'.bytesLeft < d.bytesLeft := by
  obtain ⟨tail,htail,hvalues⟩ := h.runs
  have hloaded : d.loaded = [] := by
    rw [loaded,hrle,hbits]
    rfl
  have hnext : d.nextRun = d.pos := if_pos hbits
  rw [hloaded,List.nil_append] at hvalues
  rw [hnext] at htail
  subst hvalues
  generalize hdata : d.data.drop d.pos = data at htail
  cases htail with
  | nil =>
    refine .inl ⟨rfl,{ d with pos := d.pos },?_,h.width,h.inside,[],?_,?_⟩
    · rw [reloadRun,readHybridVarint_end hdata]
      rfl
    · rw [nextRun,if_pos hbits,hdata]
      exact .nil
    · exact (List.append_nil _).symm ▸ hloaded.symm
  | @cons run data values rest hrun hrest =>
    right
    cases hrun with
    | repeated hheader hn hlen hvalue =>
      rw [List.append_assoc] at hdata
      obtain ⟨-,hafter,hlength⟩ := drop_header hdata
      have hpos := List.length_pos_iff.mpr hheader.varint.ne_nil
      refine ⟨_,reloadRun_repeated hheader hlen hdata,⟨h.width,?_,rest,?_,?_⟩,?_⟩
      · exact fun h => absurd (hbits ▸ h) (Nat.lt_irrefl 0)
      · simpa only [nextRun,hbits,if_true,hafter] using hrest
      · simp only [loaded,hbits,bitFields,List.append_nil]
      · simp only [bytesLeft,nextRun,hbits,if_true]
        omega
    | @packed header groups n hheader hlen =>
      rw [List.append_assoc] at hdata
      obtain ⟨hgroups,hafter,hlength⟩ := drop_header hdata
      have hpos := List.length_pos_iff.mpr hheader.varint.ne_nil
      have hmul : n * 8 * d.bitWidth = 8 * groups.length := by
        rw [hlen]
        ring
      -- a run without groups is passed at once
      have hempty : n * 8 = 0 → groups.length = 0 := fun h => by
        rw [hlen,show n = 0 by omega,Nat.zero_mul]
      refine ⟨_,reloadRun_packed hheader hlen hdata,⟨h.width,?_,rest,?_,?_⟩,?_⟩
      · intro _
        simp only
        omega
      · have hnext' : (if n * 8 = 0 then d.pos + header.length else d.pos + header.length + groups.length) =
            d.pos + header.length + groups.length := by
          split_ifs with hzero
          · rw [hempty hzero,Nat.add_zero]
          · rfl
        simpa only [nextRun,hnext',hafter] using hrest
      · simp only [loaded,hrle,List.replicate_zero,List.nil_append,Nat.mul_comm 8 n,bitFields_slice hlen hgroups]
      · simp only [bytesLeft,nextRun,hbits,if_true]
        split_ifs
        · omega
        · omega

theorem readBitpackedValue_eq (hw : d.bitWidth ≤ 32) (hinside : d.bitpackBitOffset + d.bitWidth ≤ 8 * d.bitpackEnd) :
    d.readBitpackedValue = .ok (bitField (leNat d.data) d.bitpackBitOffset d.bitWidth,d.takeBitpacked 1) := by
  have hoffset : 8 * (d.bitpackBitOffset / 8) + d.bitpackBitOffset % 8 = d.bitpackBitOffset := Nat.div_add_mod ..
  unfold readBitpackedValue
  dsimp only
  split_ifs with hzero hfast
  · have hstay : d.takeBitpacked 1 = d := by rw [takeBitpacked,hzero,Nat.mul_zero,Nat.add_zero,← hzero]
    rw [hstay,hzero,bitField_zero_width]
  · obtain ⟨-,-,hbytes⟩ := hfast
    rw [leWord_eq_leNat,leNat_slice,widthMask_eq,shiftRight_and_mask,bitField_bitField (by omega),hoffset,takeBitpacked,
      Nat.one_mul]
    rfl
  · exact absurd ⟨by omega,by omega,by omega⟩ hfast

theorem takeBitpacked_add (n m : ℕ) : (d.takeBitpacked n).takeBitpacked m = d.takeBitpacked (n + m) := by
  simp only [takeBitpacked,Nat.add_mul,Nat.add_assoc]

theorem readBitpackedValues_eq (len : ℕ) (hw : d.bitWidth ≤ 32)
    (hinside : d.bitpackBitOffset + len * d.bitWidth ≤ 8 * d.bitpackEnd) :
    readBitpackedValues len d =
      .ok (bitFields (leNat d.data) d.bitWidth d.bitpackBitOffset len,d.takeBitpacked len) := by
  induction len generalizing d with
  | zero =>
    rw [takeBitpacked,Nat.zero_mul]
    rfl
  | succ len ih =>
    have hsucc : (len + 1) * d.bitWidth = d.bitWidth + len * d.bitWidth := by ring
    have hrest := ih (d := d.takeBitpacked 1) hw (by
      simp only [takeBitpacked]
      omega)
    rw [readBitpackedValues,readBitpackedValue_eq hw (by omega)]
    simp only [Except.bind,hrest,Except.map,takeBitpacked_add,Nat.add_comm 1 len]
    rw [bitFields,takeBitpacked,Nat.one_mul]

/-- Every fast path gives the fields, and passes over their bits. -/
theorem readBitpackedI32BatchFast_eq {len : ℕ} (hw : d.bitWidth ≤ 32)
    (hinside : d.bitpackBitOffset + len * d.bitWidth ≤ 8 * d.bitpackEnd) (hend : d.bitpackEnd ≤ d.data.length) :
    d.readBitpackedI32BatchFast len = .ok none ∨ d.readBitpackedI32BatchFast len =
      .ok (some (bitFields (leNat d.data) d.bitWidth d.bitpackBitOffset len,d.takeBitpacked len)) := by
  generalize hfast : d.readBitpackedI32BatchFast len = out
  obtain ⟨data,bitWidth,pos,rle,value,left,offset,stop⟩ := d
  simp only at hw hinside hend
  unfold readBitpackedI32BatchFast at hfast
  dsimp only at hfast
  by_cases haligned : offset % 8 ≠ 0 ∨ len = 0
  · rw [if_pos haligned] at hfast
    exact .inl hfast.symm
  · rw [if_neg haligned] at hfast
    obtain ⟨halign,hlen⟩ := not_or.mp haligned
    have hbits : 8 * (offset / 8) = offset := by omega
    split at hfast
    · refine .inr ?_
      rw [← hfast,bitFields_zero_width,takeBitpacked,Nat.mul_zero,Nat.add_zero]
    · split_ifs at hfast with hfits
      · exact .inl hfast.symm
      · refine .inr ?_
        rw [← hfast]
        rw [map_toNat_eq data _ (by omega),hbits]
        rfl
    · split_ifs at hfast with hfits
      · exact .inl hfast.symm
      · refine .inr ?_
        have hcount : len / 8 * 8 + len % 8 = len := Nat.div_add_mod' ..
        have hrest := readBitpackedValues_eq (len % 8)
          (d := ⟨data,7,pos,rle,value,left,offset + len / 8 * 56,stop⟩) hw (by
            simp only
            omega)
        rw [hrest] at hfast
        rw [← hfast]
        have hsplit := bitFields_add (leNat data) 7 offset (len / 8 * 8) (len % 8)
        rw [hcount,Nat.mul_assoc] at hsplit
        simp only [takeBitpacked,hsplit,chunksFrom_eq _ (sevenBitLanes_eq data) rfl,hbits]
        have hoffset : offset + len / 8 * 56 + len % 8 * 7 = offset + len * 7 := by omega
        rw [Except.map,hoffset]
    · split_ifs at hfast with hfits
      · exact .inl hfast.symm
      · refine .inr ?_
        rw [← hfast]
        rw [chunksFrom_eq _ (fun pos => wholeBytes_eq data pos 2) rfl,Nat.mul_one,hbits,takeBitpacked,Nat.mul_assoc]
    · split_ifs at hfast with hfits hodd
      · exact .inl hfast.symm
      · refine .inr ?_
        rw [← hfast]
        have hcount : len / 2 * 2 + 1 = len := by omega
        have hsplit := bitFields_add (leNat data) 12 offset (len / 2 * 2) 1
        have hlast : 8 * (offset / 8 + len / 2 * 3) = offset + len / 2 * 2 * 12 := by omega
        rw [hcount] at hsplit
        rw [hsplit,chunksFrom_eq _ (twelveBitLanes_eq data) rfl,twelveBitLanes_eq,bitFields_take _ _ _ (by decide),hbits,
          hlast,takeBitpacked]
      · refine .inr ?_
        rw [← hfast]
        have hcount : len / 2 * 2 = len := by omega
        rw [chunksFrom_eq _ (twelveBitLanes_eq data) rfl,hcount,List.append_nil,hbits,takeBitpacked]
    · split_ifs at hfast with hfits
      · exact .inl hfast.symm
      · refine .inr ?_
        rw [← hfast]
        rw [chunksFrom_eq _ (fun pos => wholeBytes_eq data pos 4) rfl,Nat.mul_one,hbits,takeBitpacked,Nat.mul_assoc]
    · exact .inl hfast.symm

theorem readBitpackedI32Batch_eq {len : ℕ} (hw : d.bitWidth ≤ 32)
    (hinside : d.bitpackBitOffset + len * d.bitWidth ≤ 8 * d.bitpackEnd) (hend : d.bitpackEnd ≤ d.data.length) :
    d.readBitpackedI32Batch len =
      .ok (bitFields (leNat d.data) d.bitWidth d.bitpackBitOffset len,d.takeBitpacked len) := by
  rw [readBitpackedI32Batch]
  rcases readBitpackedI32BatchFast_eq hw hinside hend with h | h
  · rw [h]
    exact readBitpackedValues_eq len hw hinside
  · rw [h]
    rfl

theorem Ahead.inside_le (h : d.Ahead holds values) {n : ℕ} (hpos : 0 < d.bitpackRemaining) (hn : n ≤ d.bitpackRemaining) :
    d.bitpackBitOffset + n * d.bitWidth ≤ 8 * d.bitpackEnd :=
  (Nat.add_le_add_left (Nat.mul_le_mul_right _ hn) _).trans (h.inside hpos).1

section Loops

theorem head?_of_take_one {v : ℕ} (h : values.take 1 = [v]) : values.head? = some v ∧ values.tail = values.drop 1 := by
  cases values with
  | nil => cases h
  | cons v' values => exact ⟨congrArg List.head? h,rfl⟩

theorem nextValueLoop_eq {fuel : ℕ} (h : d.Remaining values) (hfuel : d.bytesLeft < fuel) :
    ∃ d', nextValueLoop fuel d = .ok (values.head?,d') ∧ d'.Remaining values.tail := by
  induction fuel generalizing d with
  | zero => exact absurd hfuel (Nat.not_lt_zero _)
  | succ fuel ih =>
    rw [nextValueLoop]
    split_ifs with hrle hbits
    · obtain ⟨htake,hrest⟩ := h.takeRepeated hrle
      obtain ⟨hhead,htail⟩ := head?_of_take_one htake
      rw [hhead,htail]
      exact ⟨_,rfl,hrest⟩
    · obtain ⟨htake,hrest⟩ := h.takePacked (Nat.eq_zero_of_not_pos hrle) hbits hbits
      obtain ⟨hhead,htail⟩ := head?_of_take_one htake
      rw [hhead,htail,readBitpackedValue_eq h.width (Nat.one_mul d.bitWidth ▸ h.inside_le hbits hbits)]
      exact ⟨_,rfl,hrest⟩
    · rcases h.reload (Nat.eq_zero_of_not_pos hrle) (Nat.eq_zero_of_not_pos hbits) with
        ⟨rfl,d',hd',hrest⟩ | ⟨d',hd',hrest,hlt⟩
      · rw [hd']
        exact ⟨d',rfl,hrest⟩
      · rw [hd']
        exact ih hrest (by omega)

theorem bytesLeft_le (d : SimpleRleBitpackedDecoder) : d.bytesLeft ≤ d.data.length := Nat.sub_le ..

theorem Remaining.nextValue (h : d.Remaining values) :
    ∃ d', d.nextValue = .ok (values.head?,d') ∧ d'.Remaining values.tail :=
  nextValueLoop_eq h (Nat.lt_succ_of_le d.bytesLeft_le)

theorem skipValuesLoop_eq {fuel n : ℕ} (h : d.Remaining values) (hfuel : n + d.bytesLeft < fuel) :
    ∃ d', skipValuesLoop fuel n d = .ok d' ∧ d'.Remaining (values.drop n) := by
  induction fuel generalizing d values n with
  | zero => exact absurd hfuel (Nat.not_lt_zero _)
  | succ fuel ih =>
    rw [skipValuesLoop]
    split_ifs with hn hrle hbits
    · exact ⟨d,rfl,hn ▸ h⟩
    · have hle : min d.rleRemaining n ≤ n := Nat.min_le_right ..
      obtain ⟨-,hrest⟩ := h.takeRepeated (Nat.min_le_left d.rleRemaining n)
      obtain ⟨d',hd',hafter⟩ := ih (n := n - min d.rleRemaining n) hrest (by
        show _ + d.bytesLeft < fuel
        omega)
      rw [List.drop_drop,Nat.add_sub_cancel' hle] at hafter
      exact ⟨d',hd',hafter⟩
    · have hle : min d.bitpackRemaining n ≤ n := Nat.min_le_right ..
      obtain ⟨-,hrest⟩ := h.takePacked (Nat.eq_zero_of_not_pos hrle) hbits (Nat.min_le_left d.bitpackRemaining n)
      have hleft : ((d.takeBitpacked (min d.bitpackRemaining n)).countBitpacked (min d.bitpackRemaining n)).bytesLeft =
          d.bytesLeft := congrArg (d.data.length - ·) (nextRun_countBitpacked (d := d.takeBitpacked _) hbits)
      obtain ⟨d',hd',hafter⟩ := ih (n := n - min d.bitpackRemaining n) hrest (by
        rw [hleft]
        omega)
      rw [List.drop_drop,Nat.add_sub_cancel' hle] at hafter
      exact ⟨d',hd',hafter⟩
    · rcases h.reload (Nat.eq_zero_of_not_pos hrle) (Nat.eq_zero_of_not_pos hbits) with
        ⟨rfl,d',hd',hrest⟩ | ⟨d',hd',hrest,hlt⟩
      · rw [hd',List.drop_nil]
        exact ⟨d',rfl,hrest⟩
      · rw [hd']
        exact ih hrest (by omega)

theorem Remaining.skipValues (h : d.Remaining values) (n : ℕ) :
    ∃ d', d.skipValues n = .ok d' ∧ d'.Remaining (values.drop n) :=
  skipValuesLoop_eq h (by
    have := d.bytesLeft_le
    omega)

theorem take_append_take {n k : ℕ} (hk : k ≤ n) (values : List ℕ) :
    values.take n = values.take k ++ (values.drop k).take (n - k) := by
  obtain ⟨m,rfl⟩ := Nat.exists_eq_add_of_le hk
  rw [Nat.add_sub_cancel_left,List.take_add]

theorem decodeI32BatchLoop_eq {fuel n : ℕ} (decoded : ℕ) (output : List ℤ) (h : d.Remaining values)
    (hfuel : n + d.bytesLeft < fuel) :
    ∃ d', decodeI32BatchLoop fuel n decoded output d =
        .ok (decoded + (values.take n).length,output ++ (values.take n).map asI32,d') ∧
      d'.Remaining (values.drop n) := by
  induction fuel generalizing d values n decoded output with
  | zero => exact absurd hfuel (Nat.not_lt_zero _)
  | succ fuel ih =>
    rw [decodeI32BatchLoop]
    split_ifs with hn hrle hbits
    · rw [hn]
      exact ⟨d,by simp,h⟩
    · have hle : min d.rleRemaining n ≤ n := Nat.min_le_right ..
      obtain ⟨htake,hrest⟩ := h.takeRepeated (Nat.min_le_left d.rleRemaining n)
      obtain ⟨d',hd',hafter⟩ := ih (n := n - min d.rleRemaining n) (decoded + min d.rleRemaining n)
        (output ++ List.replicate (min d.rleRemaining n) (asI32 d.rleValue)) hrest (by
        show _ + d.bytesLeft < fuel
        omega)
      rw [List.drop_drop,Nat.add_sub_cancel' hle] at hafter
      refine ⟨d',?_,hafter⟩
      simp only [hd',take_append_take hle values,htake,List.map_append,List.map_replicate,List.length_append,
        List.length_replicate,List.append_assoc,Nat.add_assoc]
    · have hle : min d.bitpackRemaining n ≤ n := Nat.min_le_right ..
      have hcount := Nat.min_le_left d.bitpackRemaining n
      obtain ⟨htake,hrest⟩ := h.takePacked (Nat.eq_zero_of_not_pos hrle) hbits hcount
      have hleft : ((d.takeBitpacked (min d.bitpackRemaining n)).countBitpacked (min d.bitpackRemaining n)).bytesLeft =
          d.bytesLeft := congrArg (d.data.length - ·) (nextRun_countBitpacked (d := d.takeBitpacked _) hbits)
      have hbatch := readBitpackedI32Batch_eq h.width (h.inside_le hbits hcount) (h.inside hbits).2
      rw [← htake] at hbatch
      obtain ⟨d',hd',hafter⟩ := ih (n := n - min d.bitpackRemaining n) (decoded + min d.bitpackRemaining n)
        (output ++ (values.take (min d.bitpackRemaining n)).map asI32) hrest (by
        rw [hleft]
        omega)
      rw [List.drop_drop,Nat.add_sub_cancel' hle] at hafter
      refine ⟨d',?_,hafter⟩
      have hlength : (values.take (min d.bitpackRemaining n)).length = min d.bitpackRemaining n := by
        rw [htake,length_bitFields]
      simp only [hbatch,Except.bind,hd',take_append_take hle values,List.map_append,List.length_append,hlength,
        List.append_assoc,Nat.add_assoc]
    · rcases h.reload (Nat.eq_zero_of_not_pos hrle) (Nat.eq_zero_of_not_pos hbits) with
        ⟨rfl,d',hd',hrest⟩ | ⟨d',hd',hrest,hlt⟩
      · rw [hd',List.drop_nil]
        exact ⟨d',by simp [Except.bind],hrest⟩
      · rw [hd']
        exact ih decoded output hrest (by omega)

theorem Remaining.decodeI32Batch (h : d.Remaining values) (n : ℕ) (output : List ℤ) :
    ∃ d', d.decodeI32Batch n output =
        .ok ((values.take n).length,output ++ (values.take n).map asI32,d') ∧
      d'.Remaining (values.drop n) := by
  have hfuel : n + d.bytesLeft < n + d.data.length + 1 := by
    have := d.bytesLeft_le
    omega
  have hloop := decodeI32BatchLoop_eq 0 output h hfuel
  rwa [Nat.zero_add] at hloop

theorem Remaining.decodeNextBlockLoop (h : d.Remaining values) (count : ℕ) :
    ∃ d', decodeNextBlockLoop count d = .ok (values.take count,d') ∧ d'.Remaining (values.drop count) := by
  induction count generalizing d values with
  | zero => exact ⟨d,rfl,h⟩
  | succ count ih =>
    obtain ⟨d',hd',hrest⟩ := h.nextValue
    cases values with
    | nil =>
      refine ⟨d',?_,hrest⟩
      rw [SimpleRleBitpackedDecoder.decodeNextBlockLoop,hd']
      rfl
    | cons value values =>
      obtain ⟨d'',hd'',hafter⟩ := ih hrest
      refine ⟨d'',?_,hafter⟩
      rw [SimpleRleBitpackedDecoder.decodeNextBlockLoop,hd']
      simp only [List.head?_cons,List.tail_cons] at hd'' ⊢
      simp only [Except.bind,hd'',Except.map,List.take_succ_cons]

theorem Remaining.decodeNextBlock (h : d.Remaining values) :
    ∃ d', d.decodeNextBlock = .ok (values.take dictionaryIdBlock,d') ∧ d'.Remaining (values.drop dictionaryIdBlock) :=
  h.decodeNextBlockLoop dictionaryIdBlock

end Loops
end SimpleRleBitpackedDecoder
end Dodam.Storage

/-! ## Sequences of calls of the decoder

The calls of a reader in any order. Each answers with the segment of the encoded
values that starts where the call before it stopped.
-/
namespace Dodam.Storage
open Foundation Execution

/-- A call of the decoder; a batch is appended to the given output. -/
inductive DecoderCall
  | nextValue
  | skipValues (count : ℕ)
  | decodeI32Batch (count : ℕ) (output : List ℤ)
  | decodeNextBlock

inductive DecoderAnswer
  | value (id : Option ℕ)
  | skipped
  | batch (decoded : ℕ) (output : List ℤ)
  | block (ids : List ℕ)
deriving DecidableEq

namespace DecoderCall

def count : DecoderCall → ℕ
  | nextValue => 1
  | skipValues count => count
  | decodeI32Batch count _ => count
  | decodeNextBlock => dictionaryIdBlock

def run (d : SimpleRleBitpackedDecoder) : DecoderCall → Result (DecoderAnswer × SimpleRleBitpackedDecoder)
  | nextValue => d.nextValue.map fun (id,d) => (.value id,d)
  | skipValues count => (d.skipValues count).map fun d => (.skipped,d)
  | decodeI32Batch count output =>
    (d.decodeI32Batch count output).map fun (decoded,output,d) => (.batch decoded output,d)
  | decodeNextBlock => d.decodeNextBlock.map fun (ids,d) => (.block ids,d)

def runAll : List DecoderCall → SimpleRleBitpackedDecoder → Result (List DecoderAnswer)
  | [], _ => .ok []
  | call :: calls, d => (call.run d).bind fun (answer,d) => (runAll calls d).map (answer :: ·)

def total : List DecoderCall → ℕ
  | [] => 0
  | call :: calls => call.count + total calls

/-- The answer that hands out the segment at the front of the values. -/
def segment (values : List ℤ) : DecoderCall → DecoderAnswer
  | nextValue => .value (values.head?.map (asUnsigned 32))
  | skipValues _ => .skipped
  | decodeI32Batch count output => .batch (values.take count).length (output ++ values.take count)
  | decodeNextBlock => .block ((values.take dictionaryIdBlock).map (asUnsigned 32))

def segments : List DecoderCall → List ℤ → List DecoderAnswer
  | [], _ => []
  | call :: calls, values => call.segment values :: segments calls (values.drop call.count)

end DecoderCall

theorem asI32_asUnsigned {v : ℤ} (h : InSigned 32 v) : asI32 (asUnsigned 32 v) = v := by
  have hnonneg : 0 ≤ v % 2 ^ 32 := Int.emod_nonneg v (by decide)
  have hcast : ((2 ^ 32 : ℕ) : ℤ) = 2 ^ 32 := by norm_cast
  have hmod : wrapSigned 32 (v % 2 ^ 32) = wrapSigned 32 v := by
    rw [wrapSigned,wrapSigned,← hcast,Int.emod_bmod]
  rw [asI32,asUnsigned,Int.toNat_of_nonneg hnonneg,hmod,wrapSigned_of_mem (by decide) h]

theorem map_asI32 {values : List ℤ} (h : ∀ v ∈ values, InSigned 32 v) :
    (values.map (asUnsigned 32)).map asI32 = values := by
  have hid : (values.map (asUnsigned 32)).map asI32 = values.map id := by
    rw [List.map_map]
    refine List.map_congr_left fun v hv => ?_
    rw [Function.comp_apply,asI32_asUnsigned (h v hv),id]
  rw [hid,List.map_id]

theorem take_drop_append_padding {values padding : List ℕ} {n : ℕ} (h : padding = [] ∨ n ≤ values.length) :
    (values ++ padding).take n = values.take n ∧ (values ++ padding).drop n = values.drop n ++ padding := by
  rcases h with rfl | h
  · simp
  · exact ⟨List.take_append_of_le_length h,List.drop_append_of_le_length h⟩

/-- One call answers with its segment, and leaves the values behind it. -/
theorem DecoderCall.run_segment {d : SimpleRleBitpackedDecoder} {values : List ℤ} {padding : List ℕ} (call : DecoderCall)
    (h : d.Remaining (values.map (asUnsigned 32) ++ padding)) (hvalues : ∀ v ∈ values, InSigned 32 v)
    (hcount : padding = [] ∨ call.count ≤ values.length) :
    ∃ d', call.run d = .ok (call.segment values,d') ∧
      d'.Remaining ((values.drop call.count).map (asUnsigned 32) ++ padding) := by
  have hlength : padding = [] ∨ call.count ≤ (values.map (asUnsigned 32)).length := by rwa [List.length_map]
  have hsplit := take_drop_append_padding hlength
  rw [← List.map_take,← List.map_drop] at hsplit
  obtain ⟨htake,hdrop⟩ := hsplit
  cases call with
  | nextValue =>
    simp only [count] at hdrop
    obtain ⟨d',hd',hrest⟩ := h.nextValue
    rw [← List.drop_one,hdrop] at hrest
    have hhead : (values.map (asUnsigned 32) ++ padding).head? = values.head?.map (asUnsigned 32) := by
      cases values with
      | nil =>
        rcases hcount with rfl | h
        · rfl
        · exact absurd h (by decide)
      | cons v values => rfl
    exact ⟨d',by rw [run,hd',hhead]; rfl,hrest⟩
  | skipValues n =>
    simp only [count] at hdrop
    obtain ⟨d',hd',hrest⟩ := h.skipValues n
    rw [hdrop] at hrest
    exact ⟨d',by rw [run,hd']; rfl,hrest⟩
  | decodeI32Batch n output =>
    simp only [count] at hdrop htake
    obtain ⟨d',hd',hrest⟩ := h.decodeI32Batch n output
    rw [hdrop] at hrest
    rw [htake,List.length_map,map_asI32 fun v hv => hvalues v (List.mem_of_mem_take hv)] at hd'
    exact ⟨d',by rw [run,hd']; rfl,hrest⟩
  | decodeNextBlock =>
    simp only [count] at hdrop htake
    obtain ⟨d',hd',hrest⟩ := h.decodeNextBlock
    rw [hdrop] at hrest
    rw [htake] at hd'
    exact ⟨d',by rw [run,hd']; rfl,hrest⟩

/-- Every sequence of calls reads consecutive segments of the encoded values, as long as it does not
ask for more values than there are; without padding it may. -/
theorem DecoderCall.runAll_segments {w : ℕ} {data : List UInt8} {values : List ℤ} {padding : List ℕ} (hw : w ≤ 32)
    (hvalues : ∀ v ∈ values, InSigned 32 v) (hdata : HybridRuns w data (values.map (asUnsigned 32) ++ padding))
    (calls : List DecoderCall) (htotal : padding = [] ∨ total calls ≤ values.length) :
    runAll calls (.new data w) = .ok (segments calls values) := by
  suffices h : ∀ d : SimpleRleBitpackedDecoder, d.Remaining (values.map (asUnsigned 32) ++ padding) →
      runAll calls d = .ok (segments calls values) from
    h _ (SimpleRleBitpackedDecoder.remaining_new hw hdata)
  clear hdata
  induction calls generalizing values with
  | nil => exact fun _ _ => rfl
  | cons call calls ih =>
    intro d hd
    obtain ⟨d',hrun,hrest⟩ := call.run_segment hd hvalues (htotal.imp_right (Nat.le_of_add_right_le))
    have hcalls := ih (fun v hv => hvalues v (List.mem_of_mem_drop hv))
      (htotal.imp_right fun h => by
        rw [List.length_drop]
        rw [total] at h
        omega) d' hrest
    rw [runAll,hrun]
    simp only [Except.bind,hcalls]
    rfl

/-- Four values of two bits, the first repeated, read by three calls. -/
theorem runAll_segments_sample :
    DecoderCall.runAll [.nextValue,.skipValues 1,.decodeI32Batch 2 []] (.new [4,1,3,0xe4,0xe4] 2) =
      .ok [.value (some 1),.skipped,.batch 2 [0,1]] := by
  have hone : HybridRun 2 ([4] ++ [1]) (List.replicate 2 1) :=
    .repeated (n := 2) (headerBytes_singleton rfl (by decide)) (by decide) rfl (by decide)
  have htwo : HybridRun 2 ([3] ++ [0xe4,0xe4]) [0,1,2,3,0,1,2,3] :=
    .packed (n := 1) (headerBytes_singleton rfl (by decide)) rfl
  have hdata : HybridRuns 2 [4,1,3,0xe4,0xe4] ([1,1,0,1].map (asUnsigned 32) ++ [2,3,0,1,2,3]) :=
    .cons hone (.cons htwo .nil)
  exact DecoderCall.runAll_segments (by decide) (by decide) hdata _ (.inr (by decide))

end Dodam.Storage
