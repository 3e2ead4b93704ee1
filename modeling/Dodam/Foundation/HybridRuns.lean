import Mathlib.Data.List.Basic
import Mathlib.Data.Nat.Bitwise
import Mathlib.Tactic.Ring

/-! # Bit fields of byte lists

A list of bytes is a number whose least significant byte comes first.
-/
namespace Dodam.Foundation

/-- The number of the bytes, the least significant first. -/
def leNat : List UInt8 → ℕ
  | [] => 0
  | b :: bytes => b.toNat + 256 * leNat bytes

/-- The bytes or-ed together, each shifted to its place. -/
def leWord : List UInt8 → ℕ
  | [] => 0
  | b :: bytes => b.toNat ||| leWord bytes <<< 8

/-- The number of `width` bits from bit `offset` on. -/
def bitField (n offset width : ℕ) : ℕ := n / 2 ^ offset % 2 ^ width

/-- Fields of one width that follow each other from bit `offset` on. -/
def bitFields (n width : ℕ) : ℕ → ℕ → List ℕ
  | _, 0 => []
  | offset, count + 1 => bitField n offset width :: bitFields n width (offset + width) count

section Bytes

@[simp] theorem leWord_eq_leNat (bytes : List UInt8) : leWord bytes = leNat bytes := by
  induction bytes with
  | nil => rfl
  | cons b bytes ih =>
    have hb : b.toNat < 2 ^ 8 := b.toNat_lt
    rw [leWord,leNat,ih,Nat.shiftLeft_eq,Nat.or_comm,Nat.mul_comm (leNat bytes),← Nat.two_pow_add_eq_or_of_lt hb,
      Nat.add_comm]

theorem leNat_append (xs ys : List UInt8) : leNat (xs ++ ys) = leNat xs + 2 ^ (8 * xs.length) * leNat ys := by
  induction xs with
  | nil => simp [leNat]
  | cons b xs ih =>
    rw [List.cons_append,leNat,leNat,ih,List.length_cons]
    ring

theorem leNat_lt (bytes : List UInt8) : leNat bytes < 2 ^ (8 * bytes.length) := by
  induction bytes with
  | nil => simp [leNat]
  | cons b bytes ih =>
    have hb : b.toNat < 256 := b.toNat_lt
    have hpow : 2 ^ (8 * (b :: bytes).length) = 256 * 2 ^ (8 * bytes.length) := by
      rw [List.length_cons,Nat.mul_add,pow_add]
      ring
    rw [leNat,hpow]
    omega

theorem leNat_drop (bytes : List UInt8) (k : ℕ) : leNat (bytes.drop k) = leNat bytes / 2 ^ (8 * k) := by
  rcases Nat.le_total k bytes.length with hk | hk
  · have hsplit := leNat_append (bytes.take k) (bytes.drop k)
    have hlt := leNat_lt (bytes.take k)
    rw [List.take_append_drop,List.length_take,Nat.min_eq_left hk] at hsplit
    rw [List.length_take,Nat.min_eq_left hk] at hlt
    rw [hsplit,Nat.add_mul_div_left _ _ (Nat.two_pow_pos _),Nat.div_eq_of_lt hlt,Nat.zero_add]
  · have hlt : leNat bytes < 2 ^ (8 * k) :=
      (leNat_lt bytes).trans_le (Nat.pow_le_pow_right (by decide) (Nat.mul_le_mul_left 8 hk))
    rw [List.drop_eq_nil_of_le hk,Nat.div_eq_of_lt hlt]
    rfl

theorem leNat_take (bytes : List UInt8) (k : ℕ) : leNat (bytes.take k) = leNat bytes % 2 ^ (8 * k) := by
  rcases Nat.le_total k bytes.length with hk | hk
  · have hsplit := leNat_append (bytes.take k) (bytes.drop k)
    have hlt := leNat_lt (bytes.take k)
    rw [List.take_append_drop,List.length_take,Nat.min_eq_left hk] at hsplit
    rw [List.length_take,Nat.min_eq_left hk] at hlt
    rw [hsplit,Nat.add_mul_mod_self_left,Nat.mod_eq_of_lt hlt]
  · have hlt : leNat bytes < 2 ^ (8 * k) :=
      (leNat_lt bytes).trans_le (Nat.pow_le_pow_right (by decide) (Nat.mul_le_mul_left 8 hk))
    rw [List.take_of_length_le hk,Nat.mod_eq_of_lt hlt]

theorem leNat_slice (bytes : List UInt8) (a k : ℕ) :
    leNat ((bytes.drop a).take k) = bitField (leNat bytes) (8 * a) (8 * k) := by
  rw [leNat_take,leNat_drop,bitField]

end Bytes

section Fields
variable {n o m s w : ℕ}

theorem bitField_lt (n o w : ℕ) : bitField n o w < 2 ^ w := Nat.mod_lt _ (Nat.two_pow_pos _)

theorem shiftRight_and_mask (n s w : ℕ) : n >>> s &&& (2 ^ w - 1) = bitField n s w := by
  rw [Nat.and_two_pow_sub_one_eq_mod,Nat.shiftRight_eq_div_pow,bitField]

theorem bitField_bitField (h : s + w ≤ m) : bitField (bitField n o m) s w = bitField n (o + s) w := by
  apply Nat.eq_of_testBit_eq
  intro i
  simp only [bitField,Nat.testBit_mod_two_pow,Nat.testBit_div_two_pow]
  by_cases hi : i < w
  · have him : i + s < m := by omega
    simp only [hi,him,decide_true,Bool.true_and]
    congr 1
    omega
  · simp [hi]

theorem bitField_add (n o a b : ℕ) : bitField n o (a + b) = bitField n o a + 2 ^ a * bitField n (o + a) b := by
  rw [bitField,bitField,bitField,pow_add,Nat.mod_mul,Nat.div_div_eq_div_mul,pow_add]

theorem bitField_zero_width (n o : ℕ) : bitField n o 0 = 0 := by simp [bitField,Nat.mod_one]

theorem length_bitFields (n w o count : ℕ) : (bitFields n w o count).length = count := by
  induction count generalizing o with
  | zero => rfl
  | succ count ih => rw [bitFields,List.length_cons,ih]

theorem bitFields_add (n w o i j : ℕ) :
    bitFields n w o (i + j) = bitFields n w o i ++ bitFields n w (o + i * w) j := by
  induction i generalizing o with
  | zero => simp [bitFields]
  | succ i ih =>
    have hnext : o + w + i * w = o + (i + 1) * w := by ring
    rw [Nat.succ_add,bitFields,bitFields,ih,hnext,List.cons_append]

theorem bitFields_lt {n w o count v : ℕ} (h : v ∈ bitFields n w o count) : v < 2 ^ w := by
  induction count generalizing o with
  | zero => cases h
  | succ count ih =>
    rcases List.mem_cons.mp h with rfl | h
    · exact bitField_lt ..
    · exact ih h

theorem bitFields_bitField {k : ℕ} (h : s + k * w ≤ m) :
    bitFields (bitField n o m) w s k = bitFields n w (o + s) k := by
  induction k generalizing s with
  | zero => rfl
  | succ k ih =>
    have hsucc : (k + 1) * w = k * w + w := Nat.succ_mul ..
    rw [bitFields,bitFields,bitField_bitField (by omega),ih (by omega),Nat.add_assoc]

theorem bitFields_zero_width (n o count : ℕ) : bitFields n 0 o count = List.replicate count 0 := by
  induction count generalizing o with
  | zero => rfl
  | succ count ih => rw [bitFields,ih,bitField_zero_width,List.replicate_succ]

theorem bitFields_take (n w o : ℕ) {i count : ℕ} (h : i ≤ count) :
    (bitFields n w o count).take i = bitFields n w o i := by
  obtain ⟨j,rfl⟩ := Nat.exists_eq_add_of_le h
  rw [bitFields_add,List.take_left' (length_bitFields ..)]

theorem bitFields_eq_map (n w o count : ℕ) :
    bitFields n w o count = (List.range count).map fun k => bitField n (o + k * w) w := by
  induction count with
  | zero => rfl
  | succ count ih => rw [bitFields_add,ih,List.range_succ,List.map_append]; rfl

theorem shiftRight_bitField (h : s ≤ m) : bitField n o m >>> s = bitField n (o + s) (m - s) := by
  obtain ⟨b,rfl⟩ := Nat.exists_eq_add_of_le h
  rw [Nat.add_sub_cancel_left,bitField_add,Nat.shiftRight_eq_div_pow,Nat.add_mul_div_left _ _ (Nat.two_pow_pos s),
    Nat.div_eq_of_lt (bitField_lt ..),Nat.zero_add]

end Fields

section Masks
variable {flags flags' : List Bool}

/-- A bit for each flag that is set, from a lane on. -/
def flagsMask : List Bool → ℕ → ℕ
  | [], _ => 0
  | flag :: flags, lane => (if flag then 1 <<< lane else 0) ||| flagsMask flags (lane + 1)

theorem flagsMask_append (lane : ℕ) :
    flagsMask (flags ++ flags') lane = flagsMask flags lane ||| flagsMask flags' (lane + flags.length) := by
  induction flags generalizing lane with
  | nil => simp [flagsMask]
  | cons flag flags ih =>
    rw [List.cons_append,flagsMask,flagsMask,ih,Nat.lor_assoc,List.length_cons,Nat.add_right_comm lane 1,← Nat.add_assoc]

theorem testBit_flagsMask (flags : List Bool) (lane k : ℕ) :
    (flagsMask flags lane).testBit k = (decide (lane ≤ k) && flags[k - lane]?.getD false) := by
  induction flags generalizing lane with
  | nil => simp [flagsMask]
  | cons flag flags ih =>
    have hhead : (if flag then 1 <<< lane else 0).testBit k = (flag && decide (lane = k)) := by
      cases flag with
      | false => simp
      | true => simp [Nat.one_shiftLeft,Nat.testBit_two_pow]
    rw [flagsMask,Nat.testBit_or,hhead,ih]
    rcases Nat.lt_trichotomy k lane with hk | rfl | hk
    · have hne : lane ≠ k := by omega
      simp [hne,show ¬lane ≤ k by omega,show ¬lane + 1 ≤ k by omega]
    · simp
    · obtain ⟨j,rfl⟩ := Nat.exists_eq_add_of_lt hk
      have hj : lane + j + 1 - lane = j + 1 := by omega
      have hj' : lane + j + 1 - (lane + 1) = j := by omega
      simp [hj,hj',show lane ≠ lane + j + 1 by omega,show lane ≤ lane + j + 1 by omega]

end Masks
end Dodam.Foundation

/-! ## The hybrid format of repeated and bit-packed runs

Values of one bit width are stored as runs. A run starts with a header number;
an even header is followed by one value to repeat, an odd one by groups of eight
values without gaps between their bits. The last group may hold more values than
are meant.
-/
namespace Dodam.Foundation

/-- A number in groups of seven bits, the lowest first; all bytes but the last have their high bit
set. -/
inductive VarintBytes : ℕ → List UInt8 → Prop
  | last {b : UInt8} (h : b.toNat < 128) : VarintBytes b.toNat [b]
  | more {b : UInt8} {n : ℕ} {bytes : List UInt8} (h : 128 ≤ b.toNat) (rest : VarintBytes n bytes) :
      VarintBytes (b.toNat - 128 + 128 * n) (b :: bytes)

structure HeaderBytes (n : ℕ) (bytes : List UInt8) : Prop where
  varint : VarintBytes n bytes
  short : bytes.length ≤ 10
  fits : n < 2 ^ 64

/-- The bytes of one run of values of `w` bits. -/
inductive HybridRun (w : ℕ) : List UInt8 → List ℕ → Prop
  | repeated {header value : List UInt8} {n : ℕ} (hheader : HeaderBytes (2 * n) header) (hn : 0 < n)
      (hlen : value.length = (w + 7) / 8) (hvalue : leNat value < 2 ^ w) :
      HybridRun w (header ++ value) (List.replicate n (leNat value))
  | packed {header groups : List UInt8} {n : ℕ} (hheader : HeaderBytes (2 * n + 1) header)
      (hlen : groups.length = n * w) :
      HybridRun w (header ++ groups) (bitFields (leNat groups) w 0 (8 * n))

inductive HybridRuns (w : ℕ) : List UInt8 → List ℕ → Prop
  | nil : HybridRuns w [] []
  | cons {run data : List UInt8} {values rest : List ℕ} (hrun : HybridRun w run values)
      (hrest : HybridRuns w data rest) : HybridRuns w (run ++ data) (values ++ rest)

/-- The bytes encode the values; behind them the last group is filled up. -/
def HybridEncodes (w : ℕ) (data : List UInt8) (values : List ℕ) : Prop :=
  ∃ padding, HybridRuns w data (values ++ padding)

theorem HybridRun.lt {w : ℕ} {data : List UInt8} {values : List ℕ} (h : HybridRun w data values) :
    ∀ v ∈ values, v < 2 ^ w := by
  intro v hv
  cases h with
  | repeated _ _ _ hvalue => rwa [List.eq_of_mem_replicate hv]
  | packed => exact bitFields_lt hv

theorem HybridRuns.lt {w : ℕ} {data : List UInt8} {values : List ℕ} (h : HybridRuns w data values) :
    ∀ v ∈ values, v < 2 ^ w := by
  induction h with
  | nil => nofun
  | cons hrun _ ih =>
    intro v hv
    rcases List.mem_append.mp hv with hv | hv
    · exact hrun.lt v hv
    · exact ih v hv

theorem VarintBytes.ne_nil {n : ℕ} {bytes : List UInt8} (h : VarintBytes n bytes) : bytes ≠ [] := by
  cases h <;> exact List.cons_ne_nil _ _

theorem headerBytes_singleton {b : UInt8} {n : ℕ} (hb : b.toNat = n) (hn : n < 128) : HeaderBytes n [b] where
  varint := hb ▸ .last (hb ▸ hn)
  short := by simp
  fits := hn.trans (by decide)

end Dodam.Foundation
