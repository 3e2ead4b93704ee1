import Mathlib.Data.List.Basic
import Mathlib.Data.List.TakeWhile

/-! # Comma-separated values

The grammar of files of records of fields, over the bytes that may stand in a field without
quotes and the line breaks.
-/
namespace Dodam.Foundation

abbrev commaByte : UInt8 := 44
abbrev quoteByte : UInt8 := 34
abbrev carriageReturn : UInt8 := 13
abbrev lineFeed : UInt8 := 10

/-- The bytes that need no quotes, and the line breaks. -/
structure CsvDialect where
  textData : UInt8 → Prop
  lineBreak : List UInt8 → Prop

section Grammar
variable (dialect : CsvDialect)

/-- What stands between quotes for a text: its quotes are doubled. -/
inductive EscapedText : List UInt8 → List UInt8 → Prop
  | nil : EscapedText [] []
  | plain {b : UInt8} {written text : List UInt8}
      (hb : dialect.textData b ∨ b = commaByte ∨ b = carriageReturn ∨ b = lineFeed) (h : EscapedText written text) :
      EscapedText (b :: written) (b :: text)
  | quote {written text : List UInt8} (h : EscapedText written text) :
      EscapedText (quoteByte :: quoteByte :: written) (quoteByte :: text)

inductive CsvField : List UInt8 → List UInt8 → Prop
  | escaped {written text : List UInt8} (h : EscapedText dialect written text) :
      CsvField (quoteByte :: (written ++ [quoteByte])) text
  | plain {text : List UInt8} (h : ∀ b ∈ text, dialect.textData b) : CsvField text text

inductive CsvRecord : List UInt8 → List (List UInt8) → Prop
  | last {written text : List UInt8} (h : CsvField dialect written text) : CsvRecord written [text]
  | cons {written text rest : List UInt8} {texts : List (List UInt8)} (h : CsvField dialect written text)
      (hrest : CsvRecord rest texts) : CsvRecord (written ++ commaByte :: rest) (text :: texts)

/-- Records with line breaks between them, and maybe one behind the last. -/
inductive CsvFile : List UInt8 → List (List (List UInt8)) → Prop
  | nil : CsvFile [] []
  | last {written : List UInt8} {record : List (List UInt8)} (h : CsvRecord dialect written record) : CsvFile written [record]
  | cons {written lineEnd rest : List UInt8} {record : List (List UInt8)} {records : List (List (List UInt8))}
      (h : CsvRecord dialect written record) (hend : dialect.lineBreak lineEnd) (hrest : CsvFile rest records) :
      CsvFile (written ++ lineEnd ++ rest) (record :: records)

end Grammar

/-- Nothing is taken for a delimiter that is none, and a line may end with a line feed. -/
structure CsvDialect.Plain (dialect : CsvDialect) : Prop where
  textData_ne : ∀ b, dialect.textData b → b ≠ commaByte ∧ b ≠ quoteByte ∧ b ≠ carriageReturn ∧ b ≠ lineFeed
  lineBreak_cases : ∀ lineEnd, dialect.lineBreak lineEnd → lineEnd = [lineFeed] ∨ lineEnd = [carriageReturn,lineFeed]
  lineFeed_breaks : dialect.lineBreak [lineFeed]

def LineOver (rest : List UInt8) : Prop := ∀ b ∈ rest.head?, b = carriageReturn ∨ b = lineFeed

def FieldOver (rest : List UInt8) : Prop := ∀ b ∈ rest.head?, b = commaByte ∨ b = carriageReturn ∨ b = lineFeed

theorem LineOver.fieldOver {rest : List UInt8} (h : LineOver rest) : FieldOver rest := fun b hb => Or.inr (h b hb)

theorem fieldOver_comma (rest : List UInt8) : FieldOver (commaByte :: rest) := by
  intro b hb
  exact Or.inl (Option.some_inj.mp hb).symm

section Unique
variable {dialect : CsvDialect}
variable {a b x y t : List UInt8} {r s : List (List UInt8)} {records : List (List (List UInt8))}

theorem append_unique {p : UInt8 → Prop} (ha : ∀ c ∈ a, p c) (hb : ∀ c ∈ b, p c)
    (hx : ∀ c ∈ x.head?, ¬ p c) (hy : ∀ c ∈ y.head?, ¬ p c) (h : a ++ x = b ++ y) : a = b ∧ x = y := by
  induction a generalizing b with
  | nil =>
    cases b with
    | nil => exact ⟨rfl,h⟩
    | cons c b =>
      rw [List.nil_append] at h
      subst h
      exact absurd (hb c (List.mem_cons_self ..)) (hx c rfl)
  | cons c a ih =>
    cases b with
    | nil =>
      rw [List.nil_append] at h
      subst h
      exact absurd (ha c (List.mem_cons_self ..)) (hy c rfl)
    | cons d b =>
      obtain ⟨rfl,htail⟩ := List.cons.inj h
      obtain ⟨rfl,hrest⟩ := ih (fun c hc => ha c (List.mem_cons_of_mem _ hc)) (fun c hc => hb c (List.mem_cons_of_mem _ hc)) htail
      exact ⟨rfl,hrest⟩

/-- The quote that ends a field is the first that is not doubled. -/
theorem escapedText_unique (hdialect : dialect.Plain) {s : List UInt8} (ha : EscapedText dialect a s)
    (hb : EscapedText dialect b t) (hx : FieldOver x) (hy : FieldOver y)
    (h : a ++ quoteByte :: x = b ++ quoteByte :: y) : a = b ∧ s = t ∧ x = y := by
  have hplain : ∀ {c : UInt8}, dialect.textData c ∨ c = commaByte ∨ c = carriageReturn ∨ c = lineFeed → c ≠ quoteByte := by
    intro c hc
    rcases hc with hc | rfl | rfl | rfl
    · exact (hdialect.textData_ne c hc).2.1
    · decide
    · decide
    · decide
  have hover : ∀ {x : List UInt8} {rest : List UInt8}, FieldOver x → x ≠ quoteByte :: rest := by
    rintro x rest hx rfl
    rcases hx quoteByte rfl with h | h | h
    · cases h
    · cases h
    · cases h
  induction ha generalizing b t with
  | nil =>
    cases hb with
    | nil => exact ⟨rfl,rfl,(List.cons.inj h).2⟩
    | plain hc => exact absurd (List.cons.inj h).1.symm (hplain hc)
    | quote => exact absurd (List.cons.inj h).2 (hover hx)
  | plain hc ha ih =>
    cases hb with
    | nil => exact absurd (List.cons.inj h).1 (hplain hc)
    | plain hd hb =>
      obtain ⟨rfl,htail⟩ := List.cons.inj h
      obtain ⟨rfl,rfl,hrest⟩ := ih hb htail
      exact ⟨rfl,rfl,hrest⟩
    | quote => exact absurd (List.cons.inj h).1 (hplain hc)
  | quote ha ih =>
    cases hb with
    | nil => exact absurd (List.cons.inj h).2.symm (hover hy)
    | plain hd => exact absurd (List.cons.inj h).1.symm (hplain hd)
    | quote hb =>
      obtain ⟨rfl,rfl,hrest⟩ := ih hb (List.cons.inj (List.cons.inj h).2).2
      exact ⟨rfl,rfl,hrest⟩

theorem csvField_unique (hdialect : dialect.Plain) {s : List UInt8} (ha : CsvField dialect a s)
    (hb : CsvField dialect b t) (hx : FieldOver x) (hy : FieldOver y) (h : a ++ x = b ++ y) : a = b ∧ s = t ∧ x = y := by
  have hover : ∀ {x : List UInt8}, FieldOver x → ∀ c ∈ x.head?, ¬ dialect.textData c := by
    intro x hx c hc htext
    obtain ⟨hcomma,-,hreturn,hfeed⟩ := hdialect.textData_ne c htext
    rcases hx c hc with h | h | h
    · exact hcomma h
    · exact hreturn h
    · exact hfeed h
  have hquoted : ∀ {written text x y : List UInt8}, (∀ c ∈ text, dialect.textData c) → FieldOver y →
      quoteByte :: (written ++ [quoteByte]) ++ x ≠ text ++ y := by
    intro written text x y htext hy heq
    cases text with
    | nil =>
      have hhead : y.head? = some quoteByte := by
        rw [← List.nil_append y,← heq]
        rfl
      rcases hy quoteByte hhead with h | h | h
      · cases h
      · cases h
      · cases h
    | cons c text =>
      obtain ⟨rfl,-⟩ := List.cons.inj heq
      exact (hdialect.textData_ne _ (htext _ (List.mem_cons_self ..))).2.1 rfl
  cases ha with
  | escaped ha =>
    cases hb with
    | escaped hb =>
      rw [List.cons_append,List.cons_append,List.append_assoc,List.append_assoc] at h
      obtain ⟨rfl,rfl,hrest⟩ := escapedText_unique hdialect ha hb hx hy (List.cons.inj h).2
      exact ⟨rfl,rfl,hrest⟩
    | plain hb => exact absurd h (hquoted hb hy)
  | plain ha =>
    cases hb with
    | escaped hb => exact absurd h.symm (hquoted ha hx)
    | plain hb =>
      obtain ⟨rfl,hrest⟩ := append_unique ha hb (hover hx) (hover hy) h
      exact ⟨rfl,rfl,hrest⟩

theorem csvRecord_unique (hdialect : dialect.Plain)
    (ha : CsvRecord dialect a r) (hb : CsvRecord dialect b s) (hx : LineOver x) (hy : LineOver y)
    (h : a ++ x = b ++ y) : a = b ∧ r = s ∧ x = y := by
  have hover : ∀ {x rest : List UInt8}, LineOver x → x ≠ commaByte :: rest := by
    rintro x rest hx rfl
    rcases hx commaByte rfl with h | h
    · cases h
    · cases h
  induction ha generalizing b s with
  | last ha =>
    cases hb with
    | last hb =>
      obtain ⟨rfl,rfl,hrest⟩ := csvField_unique hdialect ha hb hx.fieldOver hy.fieldOver h
      exact ⟨rfl,rfl,hrest⟩
    | cons hb hbs =>
      rw [List.append_assoc] at h
      obtain ⟨-,-,hrest⟩ := csvField_unique hdialect ha hb hx.fieldOver (fieldOver_comma _) h
      exact absurd hrest (hover hx)
  | cons ha has ih =>
    rw [List.append_assoc] at h
    cases hb with
    | last hb =>
      obtain ⟨-,-,hrest⟩ := csvField_unique hdialect ha hb (fieldOver_comma _) hy.fieldOver h
      exact absurd hrest.symm (hover hy)
    | cons hb hbs =>
      rw [List.append_assoc] at h
      obtain ⟨rfl,rfl,hrest⟩ := csvField_unique hdialect ha hb (fieldOver_comma _) (fieldOver_comma _) h
      obtain ⟨rfl,rfl,hx⟩ := ih hbs (List.cons.inj hrest).2
      exact ⟨rfl,rfl,hx⟩

theorem csvFile_line (hdialect : dialect.Plain) {written rest : List UInt8} {record : List (List UInt8)}
    (h : CsvRecord dialect written record) : CsvFile dialect (written ++ lineFeed :: rest) records ↔
      ∃ others, records = record :: others ∧ CsvFile dialect rest others := by
  have hfeed : LineOver (lineFeed :: rest) := by
    intro b hb
    exact Or.inr (Option.some_inj.mp hb).symm
  constructor
  · intro hfile
    generalize hbytes : written ++ lineFeed :: rest = bytes at hfile
    cases hfile with
    | nil => exact absurd hbytes (List.append_ne_nil_of_right_ne_nil _ (List.cons_ne_nil _ _))
    | last hlast =>
      have hempty : LineOver ([] : List UInt8) := fun b hb => nomatch hb
      rw [← List.append_nil bytes] at hbytes
      obtain ⟨-,-,hrest⟩ := csvRecord_unique hdialect h hlast hfeed hempty hbytes
      cases hrest
    | @cons first lineEnd later record' others hfirst hend hlater =>
      rw [List.append_assoc] at hbytes
      have hover : LineOver (lineEnd ++ later) := by
        intro b hb
        rcases hdialect.lineBreak_cases lineEnd hend with rfl | rfl
        · exact Or.inr (Option.some_inj.mp hb).symm
        · exact Or.inl (Option.some_inj.mp hb).symm
      obtain ⟨rfl,rfl,hrest⟩ := csvRecord_unique hdialect h hfirst hfeed hover hbytes
      rcases hdialect.lineBreak_cases lineEnd hend with rfl | rfl
      · obtain rfl := (List.cons.inj hrest).2
        exact ⟨others,rfl,hlater⟩
      · exact absurd (List.cons.inj hrest).1 (by decide)
  · rintro ⟨others,rfl,hothers⟩
    have hcons : CsvFile dialect (written ++ [lineFeed] ++ rest) (record :: others) := .cons h hdialect.lineFeed_breaks hothers
    rw [List.append_assoc] at hcons
    exact hcons

theorem csvFile_empty (hdialect : dialect.Plain) :
    CsvFile dialect [] records ↔ records = [] ∨ records = [[[]]] := by
  constructor
  · intro hfile
    generalize hbytes : ([] : List UInt8) = bytes at hfile
    cases hfile with
    | nil => exact Or.inl rfl
    | last h =>
      subst hbytes
      right
      generalize hwritten : ([] : List UInt8) = written at h
      cases h with
      | last hfield =>
        cases hfield with
        | escaped => cases hwritten
        | plain =>
          rfl
      | cons => exact absurd hwritten.symm (List.append_ne_nil_of_right_ne_nil _ (List.cons_ne_nil _ _))
    | cons h hend hrest =>
      rw [List.append_assoc] at hbytes
      have hempty := (List.append_eq_nil_iff.mp (List.append_eq_nil_iff.mp hbytes.symm).2).1
      rcases hdialect.lineBreak_cases _ hend with rfl | rfl
      · cases hempty
      · cases hempty
  · rintro (rfl | rfl)
    · exact .nil
    · exact .last (.last (.plain fun b hb => nomatch hb))

theorem csvFile_lines (hdialect : dialect.Plain) {written : List (List UInt8)} {rows : List (List (List UInt8))}
    (h : List.Forall₂ (CsvRecord dialect) written rows) :
    CsvFile dialect (written.flatMap fun line => line ++ [lineFeed]) records ↔
      records = rows ∨ records = rows ++ [[[]]] := by
  induction h generalizing records with
  | nil => exact csvFile_empty hdialect
  | @cons line row lines rows hline hlines ih =>
    have hbytes : ((line :: lines).flatMap fun line => line ++ [lineFeed]) =
        line ++ lineFeed :: lines.flatMap fun line => line ++ [lineFeed] := by simp
    rw [hbytes,csvFile_line hdialect hline]
    constructor
    · rintro ⟨others,rfl,hothers⟩
      rcases ih.mp hothers with rfl | rfl
      · exact Or.inl rfl
      · exact Or.inr rfl
    · rintro (rfl | rfl)
      · exact ⟨rows,rfl,ih.mpr (Or.inl rfl)⟩
      · exact ⟨rows ++ [[[]]],rfl,ih.mpr (Or.inr rfl)⟩

theorem csvLine_unique (hdialect : dialect.Plain)
    (ha : CsvRecord dialect a r) (hb : CsvRecord dialect b s) (h : a ++ lineFeed :: x = b ++ lineFeed :: y) :
    a = b ∧ r = s ∧ x = y := by
  have hfeed : ∀ rest, LineOver (lineFeed :: rest) := by
    intro rest b hb
    exact Or.inr (Option.some_inj.mp hb).symm
  obtain ⟨rfl,rfl,hrest⟩ := csvRecord_unique hdialect ha hb (hfeed x) (hfeed y) h
  exact ⟨rfl,rfl,(List.cons.inj hrest).2⟩

end Unique
end Dodam.Foundation
