import Dodam.Storage.EncodedRuns
import Mathlib.Data.List.TakeWhile

/-! # Masks as runs

The word of a block has a bit for each row that is selected. The loop that takes
its zeros and ones in turns selects the rows of the bits that are set.
-/
namespace Dodam.Storage
open Foundation

section Words
variable {flags : List Bool}

theorem map_range_flags (flags : List Bool) {n : ℕ} (h : flags.length ≤ n) :
    ((List.range n).map fun k => (flagsMask flags 0).testBit k) = flags ++ List.replicate (n - flags.length) false := by
  apply List.ext_getElem?
  intro k
  rw [List.getElem?_map,List.getElem?_append,List.getElem?_replicate]
  rcases Nat.lt_or_ge k n with hk | hk
  · rw [List.getElem?_range hk,Option.map_some,testBit_flagsMask,Nat.sub_zero]
    split_ifs with hflag hrest
    · simp [hflag]
    · simp [hflag]
    · omega
  · rw [List.getElem?_eq_none (by simpa using hk),if_neg (by omega),if_neg (by omega)]
    rfl

theorem takeWhile_range_flags (p : Bool → Bool) {n : ℕ} (h : flags.length ≤ n) :
    ((List.range n).takeWhile fun k => p ((flagsMask flags 0).testBit k)).length =
      ((flags ++ List.replicate (n - flags.length) false).takeWhile p).length := by
  rw [← map_range_flags flags h,List.takeWhile_map,List.length_map]
  rfl

theorem trailingOnes_flagsMask (h : flags.length ≤ 64) : trailingOnes (flagsMask flags 0) = (flags.takeWhile id).length := by
  refine (takeWhile_range_flags id h).trans ?_
  rw [List.takeWhile_append]
  split_ifs with hall
  · rw [hall]
    simp
  · rfl

theorem trailingZeros_flagsMask (h : flags.length ≤ 64) (hset : true ∈ flags) :
    trailingZeros (flagsMask flags 0) = (flags.takeWhile (!·)).length := by
  refine (takeWhile_range_flags (!·) h).trans ?_
  rw [List.takeWhile_append,if_neg]
  intro hall
  have heq := (List.takeWhile_sublist (l := flags) (!·)).eq_of_length hall
  rw [← heq] at hset
  exact absurd (List.mem_takeWhile_imp hset) Bool.false_ne_true

theorem flagsMask_shiftRight (flags : List Bool) (k : ℕ) : flagsMask flags 0 >>> k = flagsMask (flags.drop k) 0 := by
  apply Nat.eq_of_testBit_eq
  intro i
  rw [Nat.testBit_shiftRight,testBit_flagsMask,testBit_flagsMask,List.getElem?_drop]
  simp

theorem flagsMask_eq_zero : flagsMask flags 0 = 0 ↔ ∀ flag ∈ flags, flag = false := by
  constructor
  · intro h flag hflag
    obtain ⟨k,hk⟩ := List.mem_iff_getElem?.mp hflag
    have hbit : (flagsMask flags 0).testBit k = false := by rw [h,Nat.zero_testBit]
    rw [testBit_flagsMask,Nat.sub_zero,hk] at hbit
    simpa using hbit
  · intro h
    apply Nat.eq_of_testBit_eq
    intro k
    rw [testBit_flagsMask,Nat.zero_testBit,Nat.sub_zero]
    cases hk : flags[k]? with
    | none => simp
    | some flag => simp [h flag (List.mem_of_getElem? hk)]

theorem exists_zeros_ones (h : flags.length ≤ 64) (hset : flagsMask flags 0 ≠ 0) :
    ∃ zeros ones rest, flags = zeros ++ (ones ++ rest) ∧ (∀ flag ∈ zeros, flag = false) ∧ (∀ flag ∈ ones, flag = true) ∧
      ones ≠ [] ∧ trailingZeros (flagsMask flags 0) = zeros.length ∧
      trailingOnes (flagsMask (ones ++ rest) 0) = ones.length := by
  have htrue : true ∈ flags := by
    by_contra hnot
    exact hset (flagsMask_eq_zero.mpr fun flag hflag => by
      cases flag with
      | true => exact absurd hflag hnot
      | false => rfl)
  have hdrop : flags.dropWhile (!·) ≠ [] := fun hnil => by
    rw [List.dropWhile_eq_nil_iff] at hnil
    exact absurd (hnil true htrue) (by decide)
  have hlen : (flags.dropWhile (!·)).length ≤ 64 := (List.dropWhile_sublist _).length_le.trans h
  refine ⟨flags.takeWhile (!·),(flags.dropWhile (!·)).takeWhile id,(flags.dropWhile (!·)).dropWhile id,?_,?_,?_,?_,
    trailingZeros_flagsMask h htrue,?_⟩
  · rw [List.takeWhile_append_dropWhile,List.takeWhile_append_dropWhile]
  · intro flag hflag
    simpa using List.mem_takeWhile_imp hflag
  · intro flag hflag
    simpa using List.mem_takeWhile_imp hflag
  · intro hnil
    have hhead := List.head_dropWhile_not (!·) hdrop
    rw [List.takeWhile_eq_nil_iff] at hnil
    have hpos := List.length_pos_iff.mpr hdrop
    have hfirst := hnil hpos
    rw [List.head_eq_getElem] at hhead
    simp_all
  · rw [List.takeWhile_append_dropWhile,trailingOnes_flagsMask hlen]

end Words

section Loop
variable {initial : SelectedRuns} {seen : List ℕ} {rowBase : ℕ} {p : PendingRuns}

/-- The loop looks at the flags up to the last one that is set. -/
theorem selectedMaskLoop_after (fuel cursor : ℕ) (flags : List Bool) (hlen : flags.length ≤ 64)
    (hfuel : flags.length ≤ fuel) (h : p.After initial seen (rowBase + cursor)) :
    ∃ taken zeros p', flags = taken ++ zeros ∧ (∀ flag ∈ zeros, flag = false) ∧
      selectedMaskLoop rowBase fuel (flagsMask flags 0) cursor p = (cursor + taken.length,p') ∧
      p'.After initial (seen ++ markedFrom (rowBase + cursor) taken) (rowBase + (cursor + taken.length)) := by
  induction fuel generalizing cursor flags seen p with
  | zero =>
    obtain rfl := List.eq_nil_of_length_eq_zero (Nat.le_zero.mp hfuel)
    exact ⟨[],[],p,rfl,nofun,rfl,by simpa using h⟩
  | succ fuel ih =>
    by_cases hzero : flagsMask flags 0 = 0
    · refine ⟨[],flags,p,rfl,flagsMask_eq_zero.mp hzero,?_,by simpa using h⟩
      rw [selectedMaskLoop,if_pos hzero]
      rfl
    obtain ⟨zeros,ones,rest,rfl,hzeros,hones,hne,hgap,hrun⟩ := exists_zeros_ones hlen hzero
    have hpos := List.length_pos_iff.mpr hne
    rw [List.length_append,List.length_append] at hlen hfuel
    -- the zeros close the open run
    have hclose : (if 0 < zeros.length then p.close else p).After initial seen (rowBase + (cursor + zeros.length)) := by
      split_ifs with hgap
      · exact h.close _
      · rw [Nat.eq_zero_of_not_pos hgap]
        exact h
    have hselect := hclose.select ones.length
    rw [Nat.add_assoc rowBase] at hselect
    obtain ⟨taken,last,p',hrest,hlast,hloop,hafter⟩ := ih _ rest (by omega) (by omega) hselect
    have hmarks : markedFrom (rowBase + cursor) (zeros ++ ones) =
        List.range' (rowBase + (cursor + zeros.length)) ones.length := by
      rw [markedFrom_append,markedFrom_none hzeros,markedFrom_all hones,List.nil_append,Nat.add_assoc]
    have hlength : (zeros ++ (ones ++ taken)).length = zeros.length + ones.length + taken.length := by
      rw [List.length_append,List.length_append,Nat.add_assoc]
    refine ⟨zeros ++ (ones ++ taken),last,p',by rw [hrest,List.append_assoc,List.append_assoc],hlast,?_,?_⟩
    · have hword : (if 64 ≤ ones.length then 0 else flagsMask (ones ++ rest) 0 >>> ones.length) = flagsMask rest 0 := by
        rw [flagsMask_shiftRight,List.drop_left]
        split_ifs with hfull
        · rw [List.eq_nil_of_length_eq_zero (l := rest) (by omega)]
          rfl
        · rfl
      rw [selectedMaskLoop,if_neg hzero,hgap]
      dsimp only
      rw [flagsMask_shiftRight,List.drop_left,hrun,if_neg hpos.ne',hword,hloop,hlength]
      congr 1
      omega
    · rw [hlength,← List.append_assoc,markedFrom_append,hmarks,List.length_append,← List.append_assoc]
      have hstart : rowBase + cursor + (zeros.length + ones.length) = rowBase + (cursor + zeros.length + ones.length) := by
        omega
      have hstop : cursor + (zeros.length + ones.length + taken.length) =
          cursor + zeros.length + ones.length + taken.length := by omega
      rw [hstart,hstop]
      exact hafter

/-- The mask of a block of rows selects those whose flag is set. -/
theorem appendSelectedMaskAsRuns_after {flags : List Bool} (hlen : flags.length ≤ 64) (h : p.After initial seen rowBase) :
    (appendSelectedMaskAsRuns rowBase flags.length (flagsMask flags 0) p).After initial
      (seen ++ markedFrom rowBase flags) (rowBase + flags.length) := by
  rw [appendSelectedMaskAsRuns]
  by_cases hempty : flags.length = 0
  · rw [if_pos hempty,List.eq_nil_of_length_eq_zero hempty]
    simpa using h
  have hvalid : flagsMask flags 0 &&& (if 64 ≤ flags.length then 2 ^ 64 - 1 else 1 <<< flags.length - 1) =
      flagsMask flags 0 := by
    have hmask : (if 64 ≤ flags.length then 2 ^ 64 - 1 else 1 <<< flags.length - 1) = 2 ^ flags.length - 1 := by
      split_ifs with hfull
      · rw [show flags.length = 64 by omega]
      · rw [Nat.one_shiftLeft]
    rw [hmask,Nat.and_two_pow_sub_one_eq_mod]
    refine Nat.mod_eq_of_lt (Nat.lt_pow_two_of_testBit _ fun k hk => ?_)
    rw [testBit_flagsMask,Nat.sub_zero,List.getElem?_eq_none hk]
    simp
  obtain ⟨taken,zeros,p',hflags,hzeros,hloop,hafter⟩ := selectedMaskLoop_after 64 0 flags hlen hlen h
  rw [if_neg hempty]
  dsimp only
  rw [hvalid,hloop]
  simp only [Nat.zero_add,Nat.add_zero] at hafter ⊢
  rw [hflags,markedFrom_append,markedFrom_none hzeros,List.append_nil]
  split_ifs with hstop
  · exact hafter.close _
  · have hnil : zeros = [] := List.eq_nil_of_length_eq_zero (by
      rw [List.length_append] at hstop
      omega)
    rw [hnil,List.append_nil]
    exact hafter

end Loop
end Dodam.Storage
