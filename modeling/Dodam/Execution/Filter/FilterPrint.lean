import Dodam.Execution.Filter.FilterGrammar

/-! # Printed filters

An expression of the grammar is printed with the parentheses that its operands need, or with all
of them, and its printed text is read back as the expression.
-/
namespace Dodam.Execution
open Foundation

section Words

theorem identDepth_zero {text : List Char} (h : ∀ c ∈ text, ¬ isStop c ∧ c ≠ '(') : identDepth 0 text = some 0 := by
  induction text with
  | nil => rfl
  | cons c text ih =>
    rw [List.forall_mem_cons] at h
    have hparen : c ≠ ')' := by
      rintro rfl
      exact h.1.1 rfl
    rw [identDepth,if_neg fun hstop => h.1.1 hstop.2,nextDepth,if_neg h.1.2,if_neg hparen]
    exact ih h.2

variable {c : Char}

theorem toLower_of_toNat_lt (h : c.toNat < 65) : c.toLower = c :=
  dif_neg fun hupper => absurd (show 65 ≤ c.toNat from hupper.1) (by omega)

theorem not_eqIgnoreAsciiCase_of_head (h : c.toNat < 65) (text : List Char) {word : List Char}
    (hword : word.head?.any (65 ≤ ·.toLower.toNat) = true) : eqIgnoreAsciiCase (c :: text) word = false := by
  obtain ⟨d,hd,hle⟩ := (Option.any_eq_true _ _).mp hword
  rw [decide_eq_true_eq] at hle
  obtain ⟨rest,rfl⟩ := List.head?_eq_some_iff.mp hd
  refine decide_eq_false fun hfold => ?_
  have heq := (List.cons.inj hfold).1
  rw [toLower_of_toNat_lt h] at heq
  rw [← heq] at hle
  omega

theorem identToken_of_head (h : c.toNat < 65) (text : List Char) : identToken (c :: text) = .ident (c :: text) := by
  have hword : ∀ word : List Char, word.head?.any (65 ≤ ·.toLower.toNat) = true → ¬ eqIgnoreAsciiCase (c :: text) word := by
    intro word hd
    rw [not_eqIgnoreAsciiCase_of_head h text hd]
    decide
  unfold identToken
  rw [if_neg (hword _ (by decide)),if_neg (hword _ (by decide)),if_neg (hword _ (by decide)),
    if_neg (hword _ (by decide)),if_neg (hword _ (by decide)),if_neg (hword _ (by decide))]

theorem numeral_char {d : Char} (h : d.isDigit ∨ d = '-') : d.toNat < 65 ∧ ¬ isStop d ∧ d ≠ '(' := by
  rcases h with hdigit | rfl
  · obtain ⟨hlow,hhigh⟩ : 48 ≤ d.toNat ∧ d.toNat ≤ 57 := Char.isDigit_iff_toNat.mp hdigit
    have hdigits : ∀ n < 58, 48 ≤ n → ¬ isStop (Char.ofNat n) ∧ Char.ofNat n ≠ '(' := by decide
    have hd := hdigits d.toNat (Nat.lt_succ_of_le hhigh) hlow
    rw [Char.ofNat_toNat] at hd
    exact ⟨by omega,hd⟩
  · decide

theorem isIdent_numeral {text : List Char} (h : ∀ d ∈ c :: text, d.isDigit ∨ d = '-') : IsIdent (c :: text) := by
  have hhead := numeral_char (h c List.mem_cons_self)
  exact ⟨⟨c,rfl,hhead.2⟩,identDepth_zero fun d hd => (numeral_char (h d hd)).2,identToken_of_head hhead.1 text⟩

theorem toString_numeral (n : ℤ) : ∃ c text, (toString n).toList = c :: text ∧ ∀ d ∈ c :: text, d.isDigit ∨ d = '-' := by
  cases n with
  | ofNat m =>
    obtain ⟨c,text,hcons⟩ := List.exists_cons_of_ne_nil (@Nat.toDigits_ne_nil m 10)
    rw [toList_toString_ofNat]
    exact ⟨c,text,hcons,fun d hd => .inl (isDigit_toDigits d (hcons ▸ hd))⟩
  | negSucc m =>
    rw [toList_toString_negSucc]
    refine ⟨'-',_,rfl,fun d hd => ?_⟩
    rcases List.mem_cons.mp hd with hd | hd
    · exact .inr hd
    · exact .inl (isDigit_toDigits _ hd)

end Words
section Print
variable (floats : FloatText)

def literalToken : LiteralValue → FilterToken
  | .null => .null
  | .boolean value => .ident (toString value).toList
  | .int64 value => .ident (toString value.toInt).toList
  | .float64 number => .ident (floats.print number)
  | .utf8 value => .string value.toList

def inTokens : List LiteralValue → List FilterToken
  | [] => [.rparen]
  | [value] => [literalToken floats value,.rparen]
  | value :: values => literalToken floats value :: .comma :: inTokens values

/-- NOT binds tighter than AND, and AND tighter than OR. -/
def precedence : Expr → ℕ
  | .or _ _ => 0
  | .and _ _ => 1
  | .not _ => 2
  | _ => 3

/-- An operand is in parentheses where it binds less than its place asks for, or where it is compound. -/
def operand (explicit : Bool) (level : ℕ) (expr : Expr) (tokens : List FilterToken) : List FilterToken :=
  if precedence expr < level ∨ explicit ∧ precedence expr < 3 then .lparen :: (tokens ++ [.rparen]) else tokens

/-- A chain is printed without parentheses if it groups to the left. -/
def printFilter (explicit : Bool) : Expr → List FilterToken
  | .or left right =>
    operand explicit 0 left (printFilter explicit left) ++ .or :: operand explicit 1 right (printFilter explicit right)
  | .and left right =>
    operand explicit 1 left (printFilter explicit left) ++ .and :: operand explicit 2 right (printFilter explicit right)
  | .not expr => .not :: operand explicit 2 expr (printFilter explicit expr)
  | .comparison comparison =>
    [.ident comparison.column.toList,.op comparison.op,literalToken floats comparison.value]
  | .inList column values negated _ =>
    .ident column.toList :: ((if negated then [.not] else []) ++ .in' :: .lparen :: inTokens floats values)
  | .isNull column negated => .ident column.toList :: .is :: ((if negated then [.not] else []) ++ [.null])
  | _ => []

/-- The expressions that texts can say: their columns are identifiers and their values literals. -/
def InGrammar : Expr → Prop
  | .comparison comparison =>
    IsIdent comparison.column.toList ∧ ∃ token, expectLiteral floats token = some comparison.value
  | .inList column values _ hasNull =>
    IsIdent column.toList ∧ values ≠ [] ∧ hasNull = false ∧
      ∀ value ∈ values, ∃ token, expectLiteral floats token = some value
  | .isNull column _ => IsIdent column.toList
  | .not expr => InGrammar expr
  | .and left right | .or left right => InGrammar left ∧ InGrammar right
  | _ => False

end Print
section Printed
variable {floats : FloatText}

/-- A literal is printed as a token that is read back. -/
theorem expectLiteral_literalToken {token : FilterToken} {value : LiteralValue} (h : expectLiteral floats token = some value) :
    expectLiteral floats (literalToken floats value) = some value ∧ Plain (literalToken floats value) := by
  cases token with
  | string text =>
    cases h
    exact ⟨by simp [literalToken,expectLiteral],trivial⟩
  | ident text =>
    cases h
    unfold parseLiteral
    split_ifs
    · exact ⟨rfl,⟨'t',rfl,by decide,by decide⟩,by decide,by decide⟩
    · exact ⟨rfl,⟨'f',rfl,by decide,by decide⟩,by decide,by decide⟩
    · cases hint : parseSigned 64 text with
      | some n =>
        obtain ⟨c,rest,hcons,hnumeral⟩ := toString_numeral (Int64.ofInt n).toInt
        have hhead := (numeral_char (hnumeral c List.mem_cons_self)).1
        have hsigned : InSigned 64 (Int64.ofInt n).toInt := ⟨Int64.le_toInt _,Int64.toInt_lt _⟩
        have hread := parseSigned_toString hsigned
        have htrue : eqIgnoreAsciiCase (c :: rest) "true".toList = false :=
          not_eqIgnoreAsciiCase_of_head hhead rest (by decide)
        have hfalse : eqIgnoreAsciiCase (c :: rest) "false".toList = false :=
          not_eqIgnoreAsciiCase_of_head hhead rest (by decide)
        rw [hcons] at hread
        simp only [literalToken,expectLiteral,parseLiteral,hcons,htrue,hfalse,hread,Int64.ofInt_toInt]
        exact ⟨rfl,isIdent_numeral hnumeral⟩
      | none =>
        cases hfloat : floats.parse text with
        | some number =>
          obtain ⟨htrue,hfalse⟩ := floats.not_boolean hfloat
          refine ⟨?_,floats.isIdent hfloat⟩
          simp only [literalToken,expectLiteral,parseLiteral,htrue,hfalse,floats.not_integer hfloat,
            floats.parse_print hfloat]
          rfl
        | none => exact ⟨by simp [literalToken,expectLiteral],trivial⟩
  | _ => cases h

def Part.ofLevel : ℕ → Part
  | 0 => .or
  | 1 => .and
  | 2 => .not
  | _ => .primary

variable {expr : Expr} {tokens used : List FilterToken} {level : ℕ} {values : List LiteralValue}

theorem derives_down (h : Derives floats (.ofLevel (level + 1)) expr tokens) :
    Derives floats (.ofLevel level) expr tokens := by
  match level,h with
  | 0,h =>
    have hor := Derives.or h .orDone
    rwa [List.append_nil] at hor
  | 1,h =>
    have hand := Derives.and h .andDone
    rwa [List.append_nil] at hand
  | 2,h => exact .primary h
  | level + 3,h => exact h

theorem derives_of_le {level' : ℕ} (hle : level ≤ level')
    (h : Derives floats (.ofLevel level') expr tokens) : Derives floats (.ofLevel level) expr tokens := by
  induction hle with
  | refl => exact h
  | step _ ih => exact ih (derives_down h)

theorem derives_operand (explicit : Bool) (hlevel : level ≤ 3)
    (h : Derives floats (.ofLevel (precedence expr)) expr tokens) :
    Derives floats (.ofLevel level) expr (operand explicit level expr tokens) := by
  unfold operand
  split_ifs with hwrap
  · have hparen : Derives floats (.ofLevel 3) expr (.lparen :: (tokens ++ [.rparen])) :=
      .paren (derives_of_le (Nat.zero_le _) h)
    exact derives_of_le hlevel hparen
  · exact derives_of_le (Nat.le_of_not_lt fun hlt => hwrap (.inl hlt)) h

theorem derives_snoc {part : Part} {right : Expr} (h : Derives floats part expr tokens) :
    ((part = .or ∨ ∃ first, part = .orLoop first) → Derives floats .and right used →
        Derives floats part (.or expr right) (tokens ++ .or :: used)) ∧
      ((part = .and ∨ ∃ first, part = .andLoop first) → Derives floats .not right used →
        Derives floats part (.and expr right) (tokens ++ .and :: used)) := by
  induction h with
  | or hfirst _ _ ih =>
    refine ⟨fun _ hright => ?_,by simp⟩
    rw [List.append_assoc]
    exact .or hfirst (ih.1 (.inr ⟨_,rfl⟩) hright)
  | @orDone first =>
    refine ⟨fun _ hright => ?_,by simp⟩
    have hmore := Derives.orMore hright (@Derives.orDone floats (.or first right))
    rwa [List.append_nil] at hmore
  | orMore hnext _ _ ih =>
    refine ⟨fun _ hright => ?_,by simp⟩
    rw [List.cons_append,List.append_assoc]
    exact .orMore hnext (ih.1 (.inr ⟨_,rfl⟩) hright)
  | and hfirst _ _ ih =>
    refine ⟨by simp,fun _ hright => ?_⟩
    rw [List.append_assoc]
    exact .and hfirst (ih.2 (.inr ⟨_,rfl⟩) hright)
  | @andDone first =>
    refine ⟨by simp,fun _ hright => ?_⟩
    have hmore := Derives.andMore hright (@Derives.andDone floats (.and first right))
    rwa [List.append_nil] at hmore
  | andMore hnext _ _ ih =>
    refine ⟨by simp,fun _ hright => ?_⟩
    rw [List.cons_append,List.append_assoc]
    exact .andMore hnext (ih.2 (.inr ⟨_,rfl⟩) hright)
  | not | primary | paren | condition => exact ⟨by simp,by simp⟩

theorem inValues_inTokens (hne : values ≠ [])
    (h : ∀ value ∈ values, ∃ token, expectLiteral floats token = some value) :
    InValues floats values (inTokens floats values) := by
  induction values with
  | nil => exact (hne rfl).elim
  | cons value values ih =>
    obtain ⟨⟨token,htoken⟩,hvalues⟩ := List.forall_mem_cons.mp h
    have hread := (expectLiteral_literalToken htoken).1
    cases values with
    | nil => exact .last hread
    | cons next values => exact .more hread (ih (List.cons_ne_nil _ _) hvalues)

theorem derives_condition {column : String} (hident : IsIdent column.toList)
    (h : Condition floats column expr used) : Derives floats .primary expr (.ident column.toList :: used) := by
  have hne : column.toList ≠ [] := by
    obtain ⟨⟨c,hc,-⟩,-,-⟩ := hident
    rintro heq
    rw [heq] at hc
    cases hc
  refine .condition hne ?_
  rwa [String.ofList_toList]

theorem derives_printFilter (explicit : Bool) (h : InGrammar floats expr) :
    Derives floats (.ofLevel (precedence expr)) expr (printFilter floats explicit expr) := by
  induction expr with
  | or left right ihleft ihright =>
    have hleft := derives_operand explicit (Nat.zero_le 3) (ihleft h.1)
    have hright : Derives floats (.ofLevel 1) right _ := derives_operand explicit (by decide) (ihright h.2)
    exact (derives_snoc hleft).1 (.inl rfl) hright
  | and left right ihleft ihright =>
    have hleft : Derives floats (.ofLevel 1) left _ := derives_operand explicit (by decide) (ihleft h.1)
    have hright : Derives floats (.ofLevel 2) right _ := derives_operand explicit (by decide) (ihright h.2)
    exact (derives_snoc hleft).2 (.inl rfl) hright
  | not expr ih =>
    have hinner : Derives floats (.ofLevel 2) expr _ := derives_operand explicit (by decide) (ih h)
    exact .not hinner
  | comparison comparison =>
    obtain ⟨hident,token,htoken⟩ := h
    exact derives_condition hident (.comparison (expectLiteral_literalToken htoken).1)
  | inList column values negated hasNull =>
    obtain ⟨hident,hne,rfl,hvalues⟩ := h
    have hin := inValues_inTokens hne hvalues
    cases negated with
    | false => exact derives_condition hident (.inList hin)
    | true => exact derives_condition hident (.notInList hin)
  | isNull column negated =>
    cases negated with
    | false => exact derives_condition h .isNull
    | true => exact derives_condition h .isNotNull
  | boolean | columnComparison | like => cases h

theorem plain_inTokens (h : ∀ value ∈ values, ∃ token, expectLiteral floats token = some value) :
    ∀ token ∈ inTokens floats values, Plain token := by
  induction values with
  | nil => simp [inTokens,Plain]
  | cons value values ih =>
    obtain ⟨⟨token,htoken⟩,hvalues⟩ := List.forall_mem_cons.mp h
    have hplain := (expectLiteral_literalToken htoken).2
    cases values with
    | nil => simpa [inTokens,Plain] using hplain
    | cons next values =>
      intro token' htoken'
      rcases List.mem_cons.mp htoken' with rfl | htoken'
      · exact hplain
      · rcases List.mem_cons.mp htoken' with rfl | htoken'
        · trivial
        · exact ih hvalues token' htoken'

theorem plain_operand {explicit : Bool}
    (h : ∀ token ∈ tokens, Plain token) : ∀ token ∈ operand explicit level expr tokens, Plain token := by
  unfold operand
  split_ifs
  · intro token htoken
    simp only [List.mem_cons,List.mem_append,List.not_mem_nil,or_false] at htoken
    rcases htoken with rfl | htoken | rfl
    · trivial
    · exact h token htoken
    · trivial
  · exact h

/-- Printed tokens are read back from their texts. -/
theorem plain_printFilter (explicit : Bool) (h : InGrammar floats expr) :
    ∀ token ∈ printFilter floats explicit expr, Plain token := by
  induction expr with
  | or left right ihleft ihright | and left right ihleft ihright =>
    intro token htoken
    rcases List.mem_append.mp htoken with htoken | htoken
    · exact plain_operand (ihleft h.1) token htoken
    · rcases List.mem_cons.mp htoken with rfl | htoken
      · trivial
      · exact plain_operand (ihright h.2) token htoken
  | not expr ih =>
    intro token htoken
    rcases List.mem_cons.mp htoken with rfl | htoken
    · trivial
    · exact plain_operand (ih h) token htoken
  | comparison comparison =>
    obtain ⟨hident,token,htoken⟩ := h
    have hplain := (expectLiteral_literalToken htoken).2
    simpa [printFilter] using ⟨hident,trivial,hplain⟩
  | inList column values negated hasNull =>
    obtain ⟨hident,-,-,hvalues⟩ := h
    have hplain := plain_inTokens hvalues
    intro token htoken
    rcases List.mem_cons.mp htoken with rfl | htoken
    · exact hident
    · rcases List.mem_append.mp htoken with htoken | htoken
      · cases negated <;> simp at htoken
        subst htoken
        trivial
      · rcases List.mem_cons.mp htoken with rfl | htoken
        · trivial
        · rcases List.mem_cons.mp htoken with rfl | htoken
          · trivial
          · exact hplain token htoken
  | isNull column negated =>
    have hident : IsIdent column.toList := h
    cases negated <;> simpa [printFilter,Plain] using hident
  | boolean | columnComparison | like => cases h

theorem printFilter_ne_nil (explicit : Bool) (h : InGrammar floats expr) :
    printFilter floats explicit expr ≠ [] := by
  intro hnil
  have hderives : Derives floats .or expr _ := derives_of_le (Nat.zero_le _) (derives_printFilter explicit h)
  rw [hnil] at hderives
  cases parseTokens_iff.mpr hderives

theorem tokenizeFilter_printFilter (explicit : Bool) (h : InGrammar floats expr) :
    tokenizeFilter (render (printFilter floats explicit expr)) = some (printFilter floats explicit expr) :=
  tokenizeFilter_render (printFilter_ne_nil explicit h) (plain_printFilter explicit h)

theorem parse_render (explicit : Bool) (h : InGrammar floats expr) :
    (tokenizeFilter (render (printFilter floats explicit expr))).bind (parseTokens floats) = some expr := by
  rw [tokenizeFilter_printFilter explicit h]
  exact parseTokens_iff.mpr (derives_of_le (Nat.zero_le _) (derives_printFilter explicit h))

end Printed
section Contributes
variable (floats : FloatText)

def erase (tokens : List FilterToken) : List FilterToken :=
  tokens.filter fun token => token ≠ .lparen ∧ token ≠ .rparen

def leadsLiteral : FilterToken → Bool
  | .op _ | .in' | .comma => true
  | _ => false

/-- The same operators, identifiers and literals; a literal may be written in another way. -/
inductive SameText : List FilterToken → List FilterToken → Prop
  | done : SameText [] []
  | token {token left right} : SameText left right → SameText (token :: left) (token :: right)
  | literal {lead token token' value left right} : leadsLiteral lead → expectLiteral floats token = some value →
      expectLiteral floats token' = some value → SameText left right →
      SameText (lead :: token :: left) (lead :: token' :: right)

/-- A text is made of blanks and tokens, and its tokens are those of its expression, up to parentheses. -/
def Contributes (text : List Char) (expr : Expr) : Prop :=
  ∃ tokens, tokenizeFilter text = some tokens ∧ Spells text tokens ∧
    ∃ printed, tokenizeFilter (render (printFilter floats true expr)) = some printed ∧
      SameText floats (erase tokens) (erase printed)

variable {floats}

theorem SameText.append {a a' b b' : List FilterToken} (h : SameText floats a a') (h' : SameText floats b b') :
    SameText floats (a ++ b) (a' ++ b') := by
  induction h with
  | done => exact h'
  | token _ ih => exact .token ih
  | literal hlead htoken htoken' _ ih => exact .literal hlead htoken htoken' ih

theorem erase_append (a b : List FilterToken) : erase (a ++ b) = erase a ++ erase b := List.filter_append ..

theorem erase_operand (explicit : Bool) (level : ℕ) (expr : Expr) (tokens : List FilterToken) :
    erase (operand explicit level expr tokens) = erase tokens := by
  unfold operand
  split_ifs
  · change erase (tokens ++ [.rparen]) = erase tokens
    rw [erase_append]
    exact List.append_nil _
  · rfl

variable (floats) in
def spelled (expr : Expr) : List FilterToken := erase (printFilter floats true expr)

theorem spelled_or (left right : Expr) : spelled floats (.or left right) = spelled floats left ++ .or :: spelled floats right := by
  unfold spelled
  rw [printFilter,erase_append,erase_operand]
  exact congrArg (fun tokens => _ ++ FilterToken.or :: tokens) (erase_operand ..)

theorem spelled_and (left right : Expr) :
    spelled floats (.and left right) = spelled floats left ++ .and :: spelled floats right := by
  unfold spelled
  rw [printFilter,erase_append,erase_operand]
  exact congrArg (fun tokens => _ ++ FilterToken.and :: tokens) (erase_operand ..)

theorem spelled_not (expr : Expr) : spelled floats (.not expr) = .not :: spelled floats expr :=
  congrArg (FilterToken.not :: ·) (erase_operand ..)

theorem erase_literal {token : FilterToken} {value : LiteralValue} (h : expectLiteral floats token = some value)
    (rest : List FilterToken) : erase (token :: rest) = token :: erase rest := by
  cases token <;> first | rfl | cases h

theorem sameText_literal {lead token : FilterToken} {value : LiteralValue} {left right : List FilterToken}
    (hlead : leadsLiteral lead) (h : expectLiteral floats token = some value)
    (hrest : SameText floats (erase left) (erase right)) :
    SameText floats (lead :: erase (token :: left)) (lead :: erase (literalToken floats value :: right)) := by
  have hprinted := (expectLiteral_literalToken h).1
  rw [erase_literal h,erase_literal hprinted]
  exact .literal hlead h hprinted hrest

variable {values : List LiteralValue} {tokens used : List FilterToken} {expr : Expr}

theorem sameText_inValues (h : InValues floats values tokens) :
    ∀ {lead}, leadsLiteral lead → SameText floats (lead :: erase tokens) (lead :: erase (inTokens floats values)) := by
  induction h with
  | last hvalue => exact fun hlead => sameText_literal hlead hvalue .done
  | @more value token values tokens hvalue hmore ih =>
    intro lead hlead
    have hcons : inTokens floats (value :: values) = literalToken floats value :: .comma :: inTokens floats values := by
      cases hmore <;> rfl
    rw [hcons]
    exact sameText_literal hlead hvalue (ih rfl)

theorem sameText_condition {column : String} (h : Condition floats column expr used) :
    SameText floats (.ident column.toList :: erase used) (spelled floats expr) := by
  cases h with
  | isNull => exact .token (.token (.token .done))
  | isNotNull => exact .token (.token (.token (.token .done)))
  | inList hvalues => exact .token (sameText_inValues hvalues rfl)
  | notInList hvalues => exact .token (.token (sameText_inValues hvalues rfl))
  | comparison hvalue => exact .token (sameText_literal rfl hvalue .done)

/-- What a part is made of: a chain that is under way goes on with what was read of it. -/
def Says (floats : FloatText) (expr : Expr) (tokens : List FilterToken) : Part → Prop
  | .orLoop first | .andLoop first =>
    ∀ before, SameText floats before (spelled floats first) → SameText floats (before ++ erase tokens) (spelled floats expr)
  | _ => SameText floats (erase tokens) (spelled floats expr)

theorem says_of_derives {part : Part} (h : Derives floats part expr tokens) :
    Says floats expr tokens part := by
  induction h with
  | or _ _ ihfirst ihtail =>
    have h := ihtail _ ihfirst
    rwa [← erase_append] at h
  | orDone =>
    intro before hbefore
    rwa [erase,List.filter_nil,List.append_nil]
  | @orMore first right expr used tail _ _ ihright ihtail =>
    intro before hbefore
    have hchain := hbefore.append (@SameText.token floats .or _ _ ihright)
    rw [← spelled_or] at hchain
    have h := ihtail _ hchain
    rw [List.append_assoc,List.cons_append,← erase_append] at h
    exact h
  | and _ _ ihfirst ihtail =>
    have h := ihtail _ ihfirst
    rwa [← erase_append] at h
  | andDone =>
    intro before hbefore
    rwa [erase,List.filter_nil,List.append_nil]
  | @andMore first right expr used tail _ _ ihright ihtail =>
    intro before hbefore
    have hchain := hbefore.append (@SameText.token floats .and _ _ ihright)
    rw [← spelled_and] at hchain
    have h := ihtail _ hchain
    rw [List.append_assoc,List.cons_append,← erase_append] at h
    exact h
  | not _ ih =>
    change SameText floats _ (spelled floats (.not _))
    rw [spelled_not]
    exact .token ih
  | primary _ ih => exact ih
  | @paren expr used _ ih =>
    change SameText floats (erase (used ++ [.rparen])) _
    rw [erase_append]
    change SameText floats (erase used ++ []) _
    rw [List.append_nil]
    exact ih
  | @condition value expr used _ hcondition =>
    have h := sameText_condition hcondition
    rwa [String.toList_ofList] at h

/-- The parts of an expression that was read are in the grammar. -/
def Part.InGrammar (floats : FloatText) (expr : Expr) : Part → Prop
  | .orLoop first | .andLoop first => Execution.InGrammar floats first → Execution.InGrammar floats expr
  | _ => Execution.InGrammar floats expr

theorem exists_token_of_inValues (h : InValues floats values tokens) :
    values ≠ [] ∧ ∀ value ∈ values, ∃ token, expectLiteral floats token = some value := by
  induction h with
  | last hvalue => exact ⟨List.cons_ne_nil _ _,by simpa using ⟨_,hvalue⟩⟩
  | more hvalue _ ih => exact ⟨List.cons_ne_nil _ _,List.forall_mem_cons.mpr ⟨⟨_,hvalue⟩,ih.2⟩⟩

theorem inGrammar_condition {column : String} (hident : IsIdent column.toList)
    (h : Condition floats column expr used) : InGrammar floats expr := by
  cases h with
  | isNull | isNotNull => exact hident
  | inList hvalues | notInList hvalues =>
    obtain ⟨hne,hmem⟩ := exists_token_of_inValues hvalues
    exact ⟨hident,hne,rfl,hmem⟩
  | comparison hvalue => exact ⟨hident,_,hvalue⟩

theorem inGrammar_of_derives {part : Part} (h : Derives floats part expr tokens) :
    tokens.IsChain (fun token _ => Plain token) → part.InGrammar floats expr := by
  induction h with
  | or _ _ ihfirst ihtail | and _ _ ihfirst ihtail =>
    intro hchain
    exact ihtail hchain.right_of_append (ihfirst hchain.left_of_append)
  | orDone | andDone => exact fun _ hfirst => hfirst
  | orMore _ _ ihright ihtail | andMore _ _ ihright ihtail =>
    intro hchain hfirst
    have hmore := hchain.tail
    exact ihtail hmore.right_of_append ⟨hfirst,ihright hmore.left_of_append⟩
  | not _ ih => exact fun hchain => ih hchain.tail
  | primary _ ih => exact ih
  | paren _ ih => exact fun hchain => ih hchain.tail.left_of_append
  | @condition value expr used _ hcondition =>
    intro hchain
    have hident : IsIdent value := by
      cases hcondition <;> exact (List.isChain_cons_cons.mp hchain).1
    exact inGrammar_condition (by rwa [String.toList_ofList]) hcondition

theorem parseFilter_iff {text : String} : parseFilter floats text = .ok expr ↔
      ∃ tokens, tokenizeFilter text.toList = some tokens ∧ Derives floats .or expr tokens := by
  have hread : parseFilter floats text = .ok expr ↔
      (tokenizeFilter text.toList).bind (parseTokens floats) = some expr := by
    unfold parseFilter
    cases (tokenizeFilter text.toList).bind (parseTokens floats) with
    | none => simp [okOr,invalidFilter]
    | some expr' => simp [okOr]
  rw [hread,Option.bind_eq_some_iff]
  simp only [parseTokens_iff]

/-- A text is read as an expression that it says, unless it has a lone exclamation mark; and a printed expression
is read back. -/
theorem parseFilter_contributes (floats : FloatText) :
    (∀ text expr, parseFilter floats text = .ok expr →
        (Contributes floats text.toList expr ↔ loneBang .between text.toList = false)) ∧
      ∀ explicit expr, InGrammar floats expr →
        parseFilter floats (String.ofList (render (printFilter floats explicit expr))) = .ok expr := by
  constructor
  · intro text expr h
    obtain ⟨tokens,htokens,hderives⟩ := parseFilter_iff.mp h
    obtain ⟨hspells,hchain⟩ := spells_tokenizeFrom (Option.filter_eq_some_iff.mp htokens).1
    constructor
    · rintro ⟨tokens',htokens',hspells',-⟩
      obtain rfl : tokens' = tokens := Option.some.inj (htokens'.symm.trans htokens)
      exact hspells.mp hspells'
    · intro hbang
      have hgrammar : InGrammar floats expr := inGrammar_of_derives hderives (hchain hbang)
      exact ⟨tokens,htokens,hspells.mpr hbang,_,tokenizeFilter_printFilter true hgrammar,says_of_derives hderives⟩
  · intro explicit expr h
    unfold parseFilter
    rw [String.toList_ofList,parse_render explicit h]
    rfl

def integerText : FloatText where
  parse _ := none
  print := String.toList
  parse_print h := by cases h
  not_integer h := by cases h
  not_boolean h := by cases h
  isIdent h := by cases h

/-- The exclamation mark of `!a = 1` is dropped. -/
theorem lone_bang_accepted :
    parseFilter integerText "!a = 1" = .ok (.comparison ⟨"a",.eq,.int64 1⟩) ∧
      ¬ Contributes integerText "!a = 1".toList (.comparison ⟨"a",.eq,.int64 1⟩) := by
  have htokens : tokenizeFrom ['!','a',' ','=',' ','1'] = some [.ident ['a'],.op .eq,.ident ['1']] := by
    have hend : tokenizeFrom [] = some [] := by rw [tokenizeFrom]
    have hone : readToken '1' [] = some (some (.ident ['1']),[]) := by decide
    have heq : readToken '=' [' ','1'] = some (some (.op .eq),[' ','1']) := by decide
    have hbang : readToken '!' ['a',' ','=',' ','1'] = some (some (.ident ['a']),[' ','=',' ','1']) := by decide
    have hblank : ∀ rest, readToken ' ' rest = some (none,rest) := fun _ => rfl
    exact tokenizeFrom_step hbang (tokenizeFrom_step (hblank _) (tokenizeFrom_step heq
      (tokenizeFrom_step (hblank _) (tokenizeFrom_step hone hend))))
  have hfilter : tokenizeFilter "!a = 1".toList = some [.ident ['a'],.op .eq,.ident ['1']] :=
    Option.filter_eq_some_iff.mpr ⟨htokens,by decide⟩
  have hcondition : Derives integerText .primary (.comparison ⟨"a",.eq,.int64 1⟩) [.ident ['a'],.op .eq,.ident ['1']] :=
    .condition (by decide) (.comparison rfl)
  constructor
  · exact parseFilter_iff.mpr ⟨_,hfilter,@derives_of_le _ _ _ 0 3 (Nat.zero_le 3) hcondition⟩
  · rintro ⟨tokens,htokens',hspells,-⟩
    rw [hfilter] at htokens'
    cases htokens'
    exact @not_spells_bang _ _ 'a' [] hspells

end Contributes
end Dodam.Execution
