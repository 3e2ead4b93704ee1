import Dodam.Execution.Filter.Literal

/-! # The characters of a date

An accepted date consists of digits, signs and the hyphens between its numbers.
No number holds a hyphen, so that the year is not negative.
-/
namespace Dodam.Execution
open Foundation

/-- The characters of the numbers of a date and of the hyphens between them. -/
def isDateText (c : Char) : Bool := c.isDigit || c = '-' || c = '+'

variable {text date : List Char} {n w month day : ℕ}

theorem parseDigits_chars (h : parseDigits text = some n) : ∀ c ∈ text, c.isDigit = true := by
  unfold parseDigits at h
  split_ifs at h with hdigits
  exact List.all_eq_true.mp hdigits.2

theorem parseUnsigned_chars (h : parseUnsigned w text = some n) :
    ∀ c ∈ text, isDateText c = true := by
  have hdigit : ∀ c : Char, c.isDigit = true → isDateText c = true := fun c hc => by simp [isDateText,hc]
  have hexact := (Option.filter_eq_some_iff.mp h).1
  split at hexact
  · rw [List.forall_mem_cons]
    exact ⟨rfl,fun c hc => hdigit c (parseDigits_chars hexact c hc)⟩
  · exact fun c hc => hdigit c (parseDigits_chars hexact c hc)

theorem parseSigned_chars {n : ℤ} (h : parseSigned w text = some n) :
    ∀ c ∈ text, isDateText c = true := by
  have hdigit : ∀ c : Char, c.isDigit = true → isDateText c = true := fun c hc => by simp [isDateText,hc]
  obtain ⟨value,hvalue,-⟩ := Option.bind_eq_some_iff.mp h
  split at hvalue <;> obtain ⟨_,hnumber,-⟩ := Option.map_eq_some_iff.mp hvalue <;>
    obtain ⟨digits,hdigits,-⟩ := Option.bind_eq_some_iff.mp hnumber
  · rw [List.forall_mem_cons]
    exact ⟨rfl,fun c hc => hdigit c (parseDigits_chars hdigits c hc)⟩
  · rw [List.forall_mem_cons]
    exact ⟨rfl,fun c hc => hdigit c (parseDigits_chars hdigits c hc)⟩
  · exact fun c hc => hdigit c (parseDigits_chars hdigits c hc)

theorem parseDateParts_eq_some {year : ℤ} (h : parseDateParts date = some (year,month,day)) :
    (∀ c ∈ date, isDateText c = true) ∧ (1 ≤ month ∧ month ≤ 12) ∧ 1 ≤ day ∧
      ∃ y m d, splitAll '-' date = [y,m,d] ∧ parseSigned 32 y = some year ∧ parseUnsigned 32 m = some month ∧
        parseUnsigned 32 d = some day := by
  unfold parseDateParts at h
  split at h
  · rename_i y m d hsplit
    obtain ⟨year',hy,h⟩ := Option.bind_eq_some_iff.mp h
    obtain ⟨month',hm,h⟩ := Option.bind_eq_some_iff.mp h
    obtain ⟨day',hd,h⟩ := Option.bind_eq_some_iff.mp h
    split_ifs at h with hrange
    cases h
    obtain ⟨hmonth,hmonth',hday,-⟩ := hrange
    refine ⟨?_,⟨hmonth,hmonth'⟩,hday,y,m,d,hsplit,hy,hm,hd⟩
    intro c hc
    rcases mem_splitAll '-' hc with rfl | ⟨part,hpart,hmem⟩
    · rfl
    · rw [hsplit] at hpart
      simp only [List.mem_cons,List.not_mem_nil,or_false] at hpart
      rcases hpart with rfl | rfl | rfl
      · exact parseSigned_chars hy c hmem
      · exact parseUnsigned_chars hm c hmem
      · exact parseUnsigned_chars hd c hmem
  · cases h

theorem ne_dateText {c d : Char} (h : isDateText c = true) (hd : isDateText d = false) : c ≠ d := by
  rintro rfl
  exact absurd (h.symm.trans hd) (by decide)

theorem parseDateParts_mem {year : ℤ} (h : parseDateParts date = some (year,month,day)) :
    0 ≤ year ∧ InSigned 32 year ∧ day ≤ 31 := by
  obtain ⟨-,-,-,y,m,d,hsplit,hy,hm,hd⟩ := parseDateParts_eq_some h
  have hdash : '-' ∉ y := notMem_of_mem_splitAll (l := date) (by rw [hsplit]; exact List.mem_cons_self)
  obtain ⟨value,hvalue,hchecked⟩ := Option.bind_eq_some_iff.mp hy
  obtain ⟨hrange,rfl⟩ := checkedSigned_eq_some.mp hchecked
  refine ⟨?_,hrange,?_⟩
  · split at hvalue
    · exact absurd List.mem_cons_self hdash
    · obtain ⟨n,hn,rfl⟩ := Option.map_eq_some_iff.mp hvalue
      obtain ⟨digits,-,hcast⟩ := Option.bind_eq_some_iff.mp hn
      exact Option.some.inj hcast ▸ Int.natCast_nonneg digits
    · obtain ⟨n,hn,rfl⟩ := Option.map_eq_some_iff.mp hvalue
      obtain ⟨digits,-,hcast⟩ := Option.bind_eq_some_iff.mp hn
      exact Option.some.inj hcast ▸ Int.natCast_nonneg digits
  · unfold parseDateParts at h
    rw [hsplit] at h
    simp only [hy,hm,hd,Option.bind_eq_bind,Option.bind_some] at h
    split_ifs at h with hmem
    exact hmem.2.2.2

end Dodam.Execution
