import Mathlib.Data.List.Basic

/-! # Self-synchronising codes

A code writes each letter as a word of units. UTF-8 is such a code.
-/
namespace Dodam.Foundation

structure SyncCode (α β : Type*) where
  word : α → List β
  isFirst : β → Prop
  word_ne : ∀ a, word a ≠ []
  first_iff : ∀ a i (h : i < (word a).length), isFirst (word a)[i] ↔ i = 0
  prefix_free : ∀ a b x y, word a ++ x = word b ++ y → a = b

namespace SyncCode
variable {α β : Type*} (code : SyncCode α β)

def encode (text : List α) : List β := text.flatMap code.word

@[simp] theorem encode_nil : code.encode [] = [] := rfl
@[simp] theorem encode_cons (a : α) (text : List α) :
    code.encode (a :: text) = code.word a ++ code.encode text := rfl
@[simp] theorem encode_append (s t : List α) : code.encode (s ++ t) = code.encode s ++ code.encode t :=
  List.flatMap_append

theorem length_le_encode (text : List α) : text.length ≤ (code.encode text).length := by
  induction text with
  | nil => simp
  | cons a text ih =>
    have hpos := List.length_pos_of_ne_nil (code.word_ne a)
    rw [encode_cons,List.length_cons,List.length_append]
    omega

theorem prefix_length_le {x y text : List α} (hx : x <+: text) (hy : y <+: text)
    (h : (code.encode x).length ≤ (code.encode y).length) : x.length ≤ y.length := by
  by_contra hlt
  obtain ⟨z,rfl⟩ := List.prefix_of_prefix_length_le hy hx (by omega)
  have hz := code.length_le_encode z
  rw [encode_append,List.length_append] at h
  rw [List.length_append] at hlt
  omega

theorem suffix_length_le {x y text : List α} (hx : x <:+ text) (hy : y <:+ text)
    (h : (code.encode x).length ≤ (code.encode y).length) : x.length ≤ y.length := by
  by_contra hlt
  obtain ⟨z,rfl⟩ := List.suffix_of_suffix_length_le hy hx (by omega)
  have hz := code.length_le_encode z
  rw [encode_append,List.length_append] at h
  rw [List.length_append] at hlt
  omega

theorem of_encode_prefix {text pre : List α} {y : List β} (h : code.encode text = code.encode pre ++ y) :
    ∃ rest, text = pre ++ rest ∧ y = code.encode rest := by
  induction pre generalizing text with
  | nil => exact ⟨text,rfl,h.symm⟩
  | cons a pre ih =>
    cases text with
    | nil =>
      rw [encode_nil,encode_cons,List.append_assoc] at h
      exact absurd (List.append_eq_nil_iff.mp h.symm).1 (code.word_ne a)
    | cons b text =>
      rw [encode_cons,encode_cons,List.append_assoc] at h
      obtain rfl := code.prefix_free _ _ _ _ h
      obtain ⟨rest,rfl,hy⟩ := ih (List.append_cancel_left h)
      exact ⟨rest,rfl,hy⟩

/-- An encoded nonempty text occurs only between encoded texts. -/
theorem of_encode_infix {text mid : List α} {x y : List β} (hmid : mid ≠ [])
    (h : code.encode text = x ++ (code.encode mid ++ y)) :
    ∃ pre rest, text = pre ++ (mid ++ rest) ∧ x = code.encode pre ∧ y = code.encode rest := by
  induction text generalizing x with
  | nil =>
    obtain ⟨a,mid,rfl⟩ := List.exists_cons_of_ne_nil hmid
    rw [encode_nil] at h
    have hnil := (List.append_eq_nil_iff.mp (List.append_eq_nil_iff.mp h.symm).2).1
    rw [encode_cons] at hnil
    exact absurd (List.append_eq_nil_iff.mp hnil).1 (code.word_ne a)
  | cons a text ih =>
    by_cases hx : x = []
    · subst hx
      obtain ⟨rest,hrest,hy⟩ := code.of_encode_prefix h
      exact ⟨[],rest,hrest,rfl,hy⟩
    · -- the occurrence starts behind the first word, where no first unit stands
      have hlen : (code.word a).length ≤ x.length := by
        by_contra hlt
        obtain ⟨b,mid',rfl⟩ := List.exists_cons_of_ne_nil hmid
        have hpos := List.length_pos_of_ne_nil (code.word_ne b)
        have hget : (code.word a)[x.length] = (code.word b)[0] := by
          have hunit := congrArg (·[x.length]?) h
          simp only [encode_cons] at hunit
          rw [List.getElem?_append_left (by omega),List.getElem?_append_right (Nat.le_refl _),Nat.sub_self,
            List.append_assoc,List.getElem?_append_left hpos,List.getElem?_eq_getElem (by omega),
            List.getElem?_eq_getElem hpos] at hunit
          exact Option.some.inj hunit
        have hfirst := (code.first_iff b 0 hpos).mpr rfl
        rw [← hget,code.first_iff] at hfirst
        exact hx (List.length_eq_zero_iff.mp hfirst)
      obtain ⟨x',rfl⟩ : ∃ x', x = code.word a ++ x' :=
        (List.prefix_of_prefix_length_le (List.prefix_append (code.word a) (code.encode text))
          (by rw [← encode_cons,h]; exact List.prefix_append ..) hlen).imp fun _ h => h.symm
      rw [encode_cons,List.append_assoc] at h
      obtain ⟨pre,rest,rfl,rfl,rfl⟩ := ih (List.append_cancel_left h)
      exact ⟨a :: pre,rest,rfl,rfl,rfl⟩

end SyncCode

/-- A search that returns the first occurrence. -/
structure Searcher (β : Type*) where
  find : List β → List β → Option ℕ
  find_none : ∀ needle hay, find needle hay = none ↔ ¬ needle <:+: hay
  find_some : ∀ needle hay i, find needle hay = some i →
    ∃ x y, hay = x ++ (needle ++ y) ∧ x.length = i ∧
      ∀ x' y', hay = x' ++ (needle ++ y') → i ≤ x'.length

def scanSearcher (β : Type*) [DecidableEq β] : Searcher β where
  find needle hay := (List.range (hay.length + 1)).find? fun i => needle.isPrefixOf (hay.drop i)
  find_none needle hay := by
    rw [List.find?_eq_none]
    constructor
    · rintro h ⟨x,y,rfl⟩
      refine h x.length (by rw [List.mem_range,List.length_append,List.length_append]; omega) ?_
      rw [List.append_assoc,List.drop_left,List.isPrefixOf_iff_prefix]
      exact List.prefix_append ..
    · intro h i _ hp
      obtain ⟨y,hy⟩ := List.isPrefixOf_iff_prefix.mp hp
      exact h ⟨hay.take i,y,by rw [List.append_assoc,hy,List.take_append_drop]⟩
  find_some needle hay i h := by
    obtain ⟨hp,hi,hbefore⟩ := List.find?_range_eq_some.mp h
    obtain ⟨y,hy⟩ := List.isPrefixOf_iff_prefix.mp hp
    rw [List.mem_range] at hi
    refine ⟨hay.take i,y,by rw [hy,List.take_append_drop],by rw [List.length_take]; omega,?_⟩
    rintro x' y' rfl
    by_contra hlt
    have hno := hbefore x'.length (by omega)
    rw [List.drop_left,List.isPrefixOf_iff_prefix.mpr (List.prefix_append ..)] at hno
    cases hno

namespace SyncCode
variable {α β : Type*} (code : SyncCode α β)

theorem encode_infix_iff {mid text : List α} (hmid : mid ≠ []) :
    code.encode mid <:+: code.encode text ↔ mid <:+: text := by
  constructor
  · rintro ⟨x,y,h⟩
    rw [List.append_assoc] at h
    obtain ⟨pre,rest,rfl,-,-⟩ := code.of_encode_infix hmid h.symm
    exact ⟨pre,rest,by rw [List.append_assoc]⟩
  · rintro ⟨x,y,rfl⟩
    exact ⟨code.encode x,code.encode y,by simp⟩

theorem find_encode (searcher : Searcher β) {needle text : List α} (hn : needle ≠ []) {i : ℕ}
    (h : searcher.find (code.encode needle) (code.encode text) = some i) :
    ∃ pre rest, text = pre ++ (needle ++ rest) ∧ (code.encode pre).length = i ∧
      ∀ pre' rest', text = pre' ++ (needle ++ rest') → (code.encode pre).length ≤ (code.encode pre').length := by
  obtain ⟨x,y,hxy,hi,hfirst⟩ := searcher.find_some _ _ _ h
  obtain ⟨pre,rest,rfl,rfl,rfl⟩ := code.of_encode_infix hn hxy
  refine ⟨pre,rest,rfl,hi,fun pre' rest' h' => ?_⟩
  rw [hi]
  exact hfirst (code.encode pre') (code.encode rest') (by rw [h']; simp)

end SyncCode

theorem utf8_prefix_free (a b : Char) (x y : List UInt8)
    (h : String.utf8EncodeChar a ++ x = String.utf8EncodeChar b ++ y) : a = b := by
  have ha := ByteArray.utf8DecodeChar?_utf8EncodeChar_append (b := x.toByteArray) (c := a)
  have hb := ByteArray.utf8DecodeChar?_utf8EncodeChar_append (b := y.toByteArray) (c := b)
  rw [← List.toByteArray_append,h,List.toByteArray_append,hb] at ha
  exact (Option.some.inj ha).symm

def utf8 : SyncCode Char UInt8 where
  word := String.utf8EncodeChar
  isFirst := UInt8.IsUTF8FirstByte
  word_ne _ := String.utf8EncodeChar_ne_nil
  first_iff _ _ _ := UInt8.isUTF8FirstByte_getElem_utf8EncodeChar
  prefix_free := utf8_prefix_free

theorem utf8_encode_ascii {stem : List Char} (h : ∀ c ∈ stem, c.toNat < 128) : utf8.encode stem = stem.map (·.toNat.toUInt8) := by
  induction stem with
  | nil => rfl
  | cons c stem ih =>
    obtain ⟨hc,hstem⟩ := List.forall_mem_cons.mp h
    have hsize : c.utf8Size = 1 := by
      rw [Char.utf8Size_eq_one_iff,UInt32.le_iff_toNat_le]
      exact Nat.le_of_lt_succ hc
    rw [SyncCode.encode_cons,ih hstem,List.map_cons]
    exact congrArg (· ++ _) (String.utf8EncodeChar_eq_singleton hsize)

end Dodam.Foundation
