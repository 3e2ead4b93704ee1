import Dodam.Execution.Filter.Expr
import Dodam.Execution.Filter.FilterTokens

/-! # The grammar of filter texts

A filter is parsed by recursive descent: disjunctions of conjunctions of negations of
conditions, both chains to the left.
-/
namespace Dodam.Execution
open Foundation

/-- Floating-point numbers as texts: a number is printed as a text that is read back, and as no other literal. -/
structure FloatText where
  parse : List Char → Option String
  print : String → List Char
  parse_print : ∀ {text number}, parse text = some number → parse (print number) = some number
  not_integer : ∀ {text number}, parse text = some number → parseSigned 64 (print number) = none
  not_boolean : ∀ {text number}, parse text = some number →
    eqIgnoreAsciiCase (print number) "true".toList = false ∧ eqIgnoreAsciiCase (print number) "false".toList = false
  isIdent : ∀ {text number}, parse text = some number → IsIdent (print number)

section Parser
variable (floats : FloatText)

/-- `LiteralValue::parse`. -/
def parseLiteral (value : List Char) : LiteralValue :=
  if eqIgnoreAsciiCase value "true".toList then .boolean true
  else if eqIgnoreAsciiCase value "false".toList then .boolean false
  else
    match parseSigned 64 value with
    | some n => .int64 (Int64.ofInt n)
    | none =>
      match floats.parse value with
      | some number => .float64 number
      | none => .utf8 (String.ofList value)

def expectLiteral : FilterToken → Option LiteralValue
  | .ident value => some (parseLiteral floats value)
  | .string value => some (.utf8 (String.ofList value))
  | _ => none

/-- The values of a list up to its closing parenthesis. -/
def parseInValues : List FilterToken → Option (List LiteralValue × List FilterToken)
  | token :: .comma :: rest =>
    (expectLiteral floats token).bind fun value => (parseInValues rest).map fun (values,rest) => (value :: values,rest)
  | token :: .rparen :: rest => (expectLiteral floats token).map fun value => ([value],rest)
  | _ => none

def parseCondition (column : String) : List FilterToken → Option (Expr × List FilterToken)
  | .is :: .not :: .null :: rest => some (.isNull column true,rest)
  | .is :: .null :: rest => some (.isNull column false,rest)
  | .not :: .in' :: .lparen :: rest =>
    (parseInValues floats rest).map fun (values,rest) => (.inList column values true false,rest)
  | .in' :: .lparen :: rest =>
    (parseInValues floats rest).map fun (values,rest) => (.inList column values false false,rest)
  | .op op :: token :: rest =>
    (expectLiteral floats token).map fun value => (.comparison ⟨column,op,value⟩,rest)
  | _ => none

-- the number bounds the depth of calls; four calls read a token
mutual

def parseOr : ℕ → List FilterToken → Option (Expr × List FilterToken)
  | 0,_ => none
  | depth + 1,tokens => (parseAnd depth tokens).bind fun (expr,rest) => parseOrLoop depth expr rest

def parseOrLoop : ℕ → Expr → List FilterToken → Option (Expr × List FilterToken)
  | 0,_,.or :: _ => none
  | depth + 1,expr,.or :: rest =>
    (parseAnd depth rest).bind fun (right,rest) => parseOrLoop depth (.or expr right) rest
  | _,expr,rest => some (expr,rest)

def parseAnd : ℕ → List FilterToken → Option (Expr × List FilterToken)
  | 0,_ => none
  | depth + 1,tokens => (parseNot depth tokens).bind fun (expr,rest) => parseAndLoop depth expr rest

def parseAndLoop : ℕ → Expr → List FilterToken → Option (Expr × List FilterToken)
  | 0,_,.and :: _ => none
  | depth + 1,expr,.and :: rest =>
    (parseNot depth rest).bind fun (right,rest) => parseAndLoop depth (.and expr right) rest
  | _,expr,rest => some (expr,rest)

def parseNot : ℕ → List FilterToken → Option (Expr × List FilterToken)
  | 0,_ => none
  | depth + 1,.not :: rest => (parseNot depth rest).map fun (expr,rest) => (.not expr,rest)
  | depth + 1,tokens => parsePrimary depth tokens

def parsePrimary : ℕ → List FilterToken → Option (Expr × List FilterToken)
  | 0,_ => none
  | depth + 1,.lparen :: rest =>
    (parseOr depth rest).bind fun (expr,rest) =>
      match rest with
      | .rparen :: rest => some (expr,rest)
      | _ => none
  | _ + 1,.ident value :: rest => if value = [] then none else parseCondition floats (String.ofList value) rest
  | _ + 1,_ => none

end

def parseTokens (tokens : List FilterToken) : Option Expr :=
  (parseOr floats (4 * tokens.length + 3) tokens).bind fun (expr,rest) => if rest = [] then some expr else none

/-- `FilterExpr::parse`. -/
def parseFilter (input : String) : Result Expr :=
  okOr ((tokenizeFilter input.toList).bind (parseTokens floats)) (invalidFilter input)

end Parser
section Grammar
variable (floats : FloatText)

/-- The nonterminals; a chain that is under way begins with an expression. -/
inductive Part
  | or
  | orLoop (first : Expr)
  | and
  | andLoop (first : Expr)
  | not
  | primary

inductive InValues : List LiteralValue → List FilterToken → Prop
  | last {value token} : expectLiteral floats token = some value → InValues [value] [token,.rparen]
  | more {value token values tokens} : expectLiteral floats token = some value → InValues values tokens →
      InValues (value :: values) (token :: .comma :: tokens)

inductive Condition (column : String) : Expr → List FilterToken → Prop
  | isNull : Condition column (.isNull column false) [.is,.null]
  | isNotNull : Condition column (.isNull column true) [.is,.not,.null]
  | inList {values tokens} : InValues floats values tokens →
      Condition column (.inList column values false false) (.in' :: .lparen :: tokens)
  | notInList {values tokens} : InValues floats values tokens →
      Condition column (.inList column values true false) (.not :: .in' :: .lparen :: tokens)
  | comparison {op token value} : expectLiteral floats token = some value →
      Condition column (.comparison ⟨column,op,value⟩) [.op op,token]

/-- NOT binds tighter than AND, AND tighter than OR, and both chains group to the left. -/
inductive Derives : Part → Expr → List FilterToken → Prop
  | or {first expr used tail} : Derives .and first used → Derives (.orLoop first) expr tail →
      Derives .or expr (used ++ tail)
  | orDone {first} : Derives (.orLoop first) first []
  | orMore {first right expr used tail} : Derives .and right used → Derives (.orLoop (.or first right)) expr tail →
      Derives (.orLoop first) expr (.or :: (used ++ tail))
  | and {first expr used tail} : Derives .not first used → Derives (.andLoop first) expr tail →
      Derives .and expr (used ++ tail)
  | andDone {first} : Derives (.andLoop first) first []
  | andMore {first right expr used tail} : Derives .not right used → Derives (.andLoop (.and first right)) expr tail →
      Derives (.andLoop first) expr (.and :: (used ++ tail))
  | not {expr used} : Derives .not expr used → Derives .not (.not expr) (.not :: used)
  | primary {expr used} : Derives .primary expr used → Derives .not expr used
  | paren {expr used} : Derives .or expr used → Derives .primary expr (.lparen :: (used ++ [.rparen]))
  | condition {value expr used} : value ≠ [] → Condition floats (String.ofList value) expr used →
      Derives .primary expr (.ident value :: used)

end Grammar
section Sound
variable {floats : FloatText}

variable (floats) in
/-- A nonterminal is read off the front of the tokens. -/
def Takes (part : Part) (expr : Expr) (tokens rest : List FilterToken) : Prop :=
  ∃ used, tokens = used ++ rest ∧ Derives floats part expr used

variable {tokens : List FilterToken} {rest : List FilterToken}

theorem parseInValues_sound {values : List LiteralValue}
    (h : parseInValues floats tokens = some (values,rest)) :
    ∃ used, tokens = used ++ rest ∧ InValues floats values used := by
  induction tokens using parseInValues.induct generalizing values with
  | case1 token tokens ih =>
    obtain ⟨value,hvalue,hmore⟩ := Option.bind_eq_some_iff.mp h
    obtain ⟨⟨values',rest'⟩,hrest,heq⟩ := Option.map_eq_some_iff.mp hmore
    cases heq
    obtain ⟨used,rfl,hused⟩ := ih hrest
    exact ⟨_,rfl,.more hvalue hused⟩
  | case2 token tokens =>
    obtain ⟨value,hvalue,heq⟩ := Option.map_eq_some_iff.mp h
    cases heq
    exact ⟨[token,.rparen],rfl,.last hvalue⟩
  | case3 tokens hcomma hrparen =>
    rw [parseInValues] at h
    · cases h
    · exact hcomma
    · exact hrparen

theorem parseCondition_sound {column : String} {expr : Expr}
    (h : parseCondition floats column tokens = some (expr,rest)) :
    ∃ used, tokens = used ++ rest ∧ Condition floats column expr used := by
  unfold parseCondition at h
  split at h
  · cases h
    exact ⟨_,rfl,.isNotNull⟩
  · cases h
    exact ⟨_,rfl,.isNull⟩
  · obtain ⟨⟨values,rest'⟩,hvalues,heq⟩ := Option.map_eq_some_iff.mp h
    cases heq
    obtain ⟨used,rfl,hused⟩ := parseInValues_sound hvalues
    exact ⟨_,rfl,.notInList hused⟩
  · obtain ⟨⟨values,rest'⟩,hvalues,heq⟩ := Option.map_eq_some_iff.mp h
    cases heq
    obtain ⟨used,rfl,hused⟩ := parseInValues_sound hvalues
    exact ⟨_,rfl,.inList hused⟩
  · obtain ⟨value,hvalue,heq⟩ := Option.map_eq_some_iff.mp h
    cases heq
    exact ⟨_,rfl,.comparison hvalue⟩
  · cases h

theorem parseOrLoop_stop (depth : ℕ) (first : Expr) (h : tokens.head? ≠ some .or) :
    parseOrLoop floats depth first tokens = some (first,tokens) := by
  rw [parseOrLoop.eq_def]
  split
  · exact (h rfl).elim
  · exact (h rfl).elim
  · rfl

theorem parseAndLoop_stop (depth : ℕ) (first : Expr) (h : tokens.head? ≠ some .and) :
    parseAndLoop floats depth first tokens = some (first,tokens) := by
  rw [parseAndLoop.eq_def]
  split
  · exact (h rfl).elim
  · exact (h rfl).elim
  · rfl

theorem parseNot_stop (depth : ℕ) (h : tokens.head? ≠ some .not) :
    parseNot floats (depth + 1) tokens = parsePrimary floats depth tokens := by
  cases tokens with
  | nil => rfl
  | cons token tokens =>
    cases token
    case not => exact (h rfl).elim
    all_goals rfl

theorem parsePrimary_lparen (depth : ℕ) {expr : Expr} :
    parsePrimary floats (depth + 1) (.lparen :: tokens) = some (expr,rest) ↔
      parseOr floats depth tokens = some (expr,.rparen :: rest) := by
  rw [parsePrimary]
  constructor
  · intro h
    obtain ⟨⟨inner,after⟩,hinner,hparen⟩ := Option.bind_eq_some_iff.mp h
    cases after with
    | nil => cases hparen
    | cons token after =>
      cases token <;> cases hparen
      exact hinner
  · intro h
    rw [h]
    rfl

variable (floats) in
/-- What is read at a depth is derived, by each of the parsing functions. -/
structure Sound (depth : ℕ) : Prop where
  or : ∀ {tokens expr rest}, parseOr floats depth tokens = some (expr,rest) → Takes floats .or expr tokens rest
  orLoop : ∀ {first tokens expr rest}, parseOrLoop floats depth first tokens = some (expr,rest) →
    Takes floats (.orLoop first) expr tokens rest
  and : ∀ {tokens expr rest}, parseAnd floats depth tokens = some (expr,rest) → Takes floats .and expr tokens rest
  andLoop : ∀ {first tokens expr rest}, parseAndLoop floats depth first tokens = some (expr,rest) →
    Takes floats (.andLoop first) expr tokens rest
  not : ∀ {tokens expr rest}, parseNot floats depth tokens = some (expr,rest) → Takes floats .not expr tokens rest
  primary : ∀ {tokens expr rest}, parsePrimary floats depth tokens = some (expr,rest) →
    Takes floats .primary expr tokens rest

theorem takes_orLoop_of_stop {depth : ℕ} {first expr : Expr}
    (hstop : tokens.head? ≠ some .or) (h : parseOrLoop floats depth first tokens = some (expr,rest)) :
    Takes floats (.orLoop first) expr tokens rest := by
  rw [parseOrLoop_stop depth first hstop] at h
  cases h
  exact ⟨[],rfl,.orDone⟩

theorem takes_andLoop_of_stop {depth : ℕ} {first expr : Expr}
    (hstop : tokens.head? ≠ some .and) (h : parseAndLoop floats depth first tokens = some (expr,rest)) :
    Takes floats (.andLoop first) expr tokens rest := by
  rw [parseAndLoop_stop depth first hstop] at h
  cases h
  exact ⟨[],rfl,.andDone⟩

theorem sound_zero : Sound floats 0 where
  or h := by cases h
  orLoop {first tokens expr rest} h := by
    by_cases hstop : tokens.head? = some .or
    · obtain ⟨after,rfl⟩ := List.head?_eq_some_iff.mp hstop
      cases h
    · exact takes_orLoop_of_stop hstop h
  and h := by cases h
  andLoop {first tokens expr rest} h := by
    by_cases hstop : tokens.head? = some .and
    · obtain ⟨after,rfl⟩ := List.head?_eq_some_iff.mp hstop
      cases h
    · exact takes_andLoop_of_stop hstop h
  not h := by cases h
  primary h := by cases h

theorem sound_succ {depth : ℕ} (ih : Sound floats depth) : Sound floats (depth + 1) where
  or h := by
    obtain ⟨⟨first,after⟩,hfirst,hloop⟩ := Option.bind_eq_some_iff.mp h
    obtain ⟨used,rfl,hused⟩ := ih.and hfirst
    obtain ⟨tail,rfl,htail⟩ := ih.orLoop hloop
    exact ⟨used ++ tail,(List.append_assoc ..).symm,.or hused htail⟩
  orLoop {first tokens expr rest} h := by
    by_cases hstop : tokens.head? = some .or
    · obtain ⟨after,rfl⟩ := List.head?_eq_some_iff.mp hstop
      obtain ⟨⟨right,after⟩,hright,hloop⟩ := Option.bind_eq_some_iff.mp h
      obtain ⟨used,rfl,hused⟩ := ih.and hright
      obtain ⟨tail,rfl,htail⟩ := ih.orLoop hloop
      exact ⟨.or :: (used ++ tail),by simp,.orMore hused htail⟩
    · exact takes_orLoop_of_stop hstop h
  and h := by
    obtain ⟨⟨first,after⟩,hfirst,hloop⟩ := Option.bind_eq_some_iff.mp h
    obtain ⟨used,rfl,hused⟩ := ih.not hfirst
    obtain ⟨tail,rfl,htail⟩ := ih.andLoop hloop
    exact ⟨used ++ tail,(List.append_assoc ..).symm,.and hused htail⟩
  andLoop {first tokens expr rest} h := by
    by_cases hstop : tokens.head? = some .and
    · obtain ⟨after,rfl⟩ := List.head?_eq_some_iff.mp hstop
      obtain ⟨⟨right,after⟩,hright,hloop⟩ := Option.bind_eq_some_iff.mp h
      obtain ⟨used,rfl,hused⟩ := ih.not hright
      obtain ⟨tail,rfl,htail⟩ := ih.andLoop hloop
      exact ⟨.and :: (used ++ tail),by simp,.andMore hused htail⟩
    · exact takes_andLoop_of_stop hstop h
  not {tokens expr rest} h := by
    by_cases hstop : tokens.head? = some .not
    · obtain ⟨after,rfl⟩ := List.head?_eq_some_iff.mp hstop
      obtain ⟨⟨inner,rest'⟩,hinner,heq⟩ := Option.map_eq_some_iff.mp h
      cases heq
      obtain ⟨used,rfl,hused⟩ := ih.not hinner
      exact ⟨.not :: used,rfl,.not hused⟩
    · rw [parseNot_stop depth hstop] at h
      obtain ⟨used,rfl,hused⟩ := ih.primary h
      exact ⟨used,rfl,.primary hused⟩
  primary {tokens expr rest} h := by
    cases tokens with
    | nil => cases h
    | cons token tokens =>
      cases token with
      | lparen =>
        obtain ⟨used,rfl,hused⟩ := ih.or ((parsePrimary_lparen depth).mp h)
        exact ⟨.lparen :: (used ++ [.rparen]),by simp,.paren hused⟩
      | ident value =>
        rw [parsePrimary] at h
        split_ifs at h with hne
        obtain ⟨used,rfl,hused⟩ := parseCondition_sound h
        exact ⟨_,rfl,.condition hne hused⟩
      | _ => cases h

theorem parse_sound (depth : ℕ) : Sound floats depth := by
  induction depth with
  | zero => exact sound_zero
  | succ depth ih => exact sound_succ ih

end Sound
section Complete
variable {floats : FloatText}

def Part.cost : Part → ℕ
  | .or => 3
  | .and => 2
  | .not => 1
  | _ => 0

variable (floats) in
def parseAt (depth : ℕ) : Part → List FilterToken → Option (Expr × List FilterToken)
  | .or => parseOr floats depth
  | .orLoop first => parseOrLoop floats depth first
  | .and => parseAnd floats depth
  | .andLoop first => parseAndLoop floats depth first
  | .not => parseNot floats depth
  | .primary => parsePrimary floats depth

/-- The tokens that follow do not go on with the chain. -/
def Part.Ends (rest : List FilterToken) : Part → Prop
  | .or | .orLoop _ => rest.head? ≠ some .or ∧ rest.head? ≠ some .and
  | .and | .andLoop _ => rest.head? ≠ some .and
  | _ => True

theorem parseInValues_complete {values : List LiteralValue} {used : List FilterToken} (h : InValues floats values used)
    (rest : List FilterToken) : parseInValues floats (used ++ rest) = some (values,rest) := by
  induction h with
  | last hvalue =>
    rw [List.cons_append,List.singleton_append,parseInValues,hvalue]
    rfl
  | more hvalue _ ih =>
    rw [List.cons_append,List.cons_append,parseInValues,hvalue,Option.bind_some,ih]
    rfl

theorem parseCondition_complete {column : String} {expr : Expr} {used : List FilterToken}
    (h : Condition floats column expr used) (rest : List FilterToken) :
    parseCondition floats column (used ++ rest) = some (expr,rest) := by
  cases h with
  | isNull => rfl
  | isNotNull => rfl
  | inList hvalues | notInList hvalues =>
    exact Option.map_eq_some_iff.mpr ⟨_,parseInValues_complete hvalues rest,rfl⟩
  | comparison hvalue => exact Option.map_eq_some_iff.mpr ⟨_,hvalue,rfl⟩

theorem orLoop_head {first expr : Expr} {used : List FilterToken} (h : Derives floats (.orLoop first) expr used) :
    used = [] ∨ used.head? = some .or := by
  cases h with
  | orDone => exact .inl rfl
  | orMore => exact .inr rfl

theorem ends_and {first expr : Expr} {used rest : List FilterToken} (h : Derives floats (.orLoop first) expr used)
    (hends : Part.or.Ends rest) : Part.and.Ends (used ++ rest) := by
  change (used ++ rest).head? ≠ some .and
  rcases orLoop_head h with rfl | hhead
  · exact hends.2
  · rw [List.head?_append,hhead]
    exact FilterToken.noConfusion ∘ Option.some.inj

/-- What is derived is read, at a depth of four for each token. -/
theorem parse_complete {part : Part} {expr : Expr} {used : List FilterToken} (h : Derives floats part expr used) :
    ∀ {rest depth}, 4 * used.length + part.cost ≤ depth → part.Ends rest →
      parseAt floats depth part (used ++ rest) = some (expr,rest) := by
  induction h with
  | @or first expr used tail hfirst htail ihfirst ihtail =>
    intro rest depth hdepth hends
    simp only [List.length_append,Part.cost] at hdepth ihfirst ihtail
    obtain ⟨depth,rfl⟩ : ∃ depth', depth = depth' + 1 := ⟨depth - 1,by omega⟩
    have hread := @ihfirst (tail ++ rest) depth (by omega) (ends_and htail hends)
    have hloop := @ihtail rest depth (by omega) hends
    simp only [parseAt] at hread hloop ⊢
    rw [List.append_assoc,parseOr,hread]
    exact hloop
  | @orDone first =>
    intro rest depth _ hends
    exact parseOrLoop_stop depth first hends.1
  | @orMore first right expr used tail hright htail ihright ihtail =>
    intro rest depth hdepth hends
    simp only [List.length_cons,List.length_append,Part.cost] at hdepth ihright ihtail
    obtain ⟨depth,rfl⟩ : ∃ depth', depth = depth' + 1 := ⟨depth - 1,by omega⟩
    have hread := @ihright (tail ++ rest) depth (by omega) (ends_and htail hends)
    have hloop := @ihtail rest depth (by omega) hends
    simp only [parseAt] at hread hloop ⊢
    rw [List.cons_append,List.append_assoc,parseOrLoop,hread]
    exact hloop
  | @and first expr used tail hfirst htail ihfirst ihtail =>
    intro rest depth hdepth hends
    simp only [List.length_append,Part.cost] at hdepth ihfirst ihtail
    obtain ⟨depth,rfl⟩ : ∃ depth', depth = depth' + 1 := ⟨depth - 1,by omega⟩
    have hread := @ihfirst (tail ++ rest) depth (by omega) trivial
    have hloop := @ihtail rest depth (by omega) hends
    simp only [parseAt] at hread hloop ⊢
    rw [List.append_assoc,parseAnd,hread]
    exact hloop
  | @andDone first =>
    intro rest depth _ hends
    exact parseAndLoop_stop depth first hends
  | @andMore first right expr used tail hright htail ihright ihtail =>
    intro rest depth hdepth hends
    simp only [List.length_cons,List.length_append,Part.cost] at hdepth ihright ihtail
    obtain ⟨depth,rfl⟩ : ∃ depth', depth = depth' + 1 := ⟨depth - 1,by omega⟩
    have hread := @ihright (tail ++ rest) depth (by omega) trivial
    have hloop := @ihtail rest depth (by omega) hends
    simp only [parseAt] at hread hloop ⊢
    rw [List.cons_append,List.append_assoc,parseAndLoop,hread]
    exact hloop
  | @not expr used _ ih =>
    intro rest depth hdepth _
    simp only [List.length_cons,Part.cost] at hdepth ih
    obtain ⟨depth,rfl⟩ : ∃ depth', depth = depth' + 1 := ⟨depth - 1,by omega⟩
    have hread := @ih rest depth (by omega) trivial
    simp only [parseAt] at hread ⊢
    rw [List.cons_append,parseNot,hread]
    rfl
  | @primary expr used hprimary ih =>
    intro rest depth hdepth _
    simp only [Part.cost] at hdepth ih
    obtain ⟨depth,rfl⟩ : ∃ depth', depth = depth' + 1 := ⟨depth - 1,by omega⟩
    have hread := @ih rest depth (by omega) trivial
    have hhead : (used ++ rest).head? ≠ some .not := by
      cases hprimary with
      | paren => exact FilterToken.noConfusion ∘ Option.some.inj
      | condition => exact FilterToken.noConfusion ∘ Option.some.inj
    simp only [parseAt] at hread ⊢
    rw [parseNot_stop depth hhead]
    exact hread
  | @paren expr used _ ih =>
    intro rest depth hdepth _
    simp only [List.length_cons,List.length_append,List.length_nil,Part.cost] at hdepth ih
    obtain ⟨depth,rfl⟩ : ∃ depth', depth = depth' + 1 := ⟨depth - 1,by omega⟩
    have hread := @ih (.rparen :: rest) depth (by omega)
      ⟨FilterToken.noConfusion ∘ Option.some.inj,FilterToken.noConfusion ∘ Option.some.inj⟩
    simp only [parseAt] at hread ⊢
    rw [List.cons_append,List.append_assoc,List.singleton_append,parsePrimary_lparen]
    exact hread
  | @condition value expr used hne hcondition =>
    intro rest depth hdepth _
    simp only [List.length_cons,Part.cost] at hdepth
    obtain ⟨depth,rfl⟩ : ∃ depth', depth = depth' + 1 := ⟨depth - 1,by omega⟩
    simp only [parseAt]
    rw [List.cons_append,parsePrimary,if_neg hne]
    exact parseCondition_complete hcondition rest

theorem parseTokens_iff {tokens : List FilterToken} {expr : Expr} :
    parseTokens floats tokens = some expr ↔ Derives floats .or expr tokens := by
  constructor
  · intro h
    obtain ⟨⟨expr',rest⟩,hread,hdone⟩ := Option.bind_eq_some_iff.mp h
    dsimp only at hdone
    split_ifs at hdone with hrest
    cases hdone
    obtain ⟨used,rfl,hused⟩ := (parse_sound _).or hread
    rw [hrest,List.append_nil]
    exact hused
  · intro h
    have hread := @parse_complete floats .or expr tokens h [] (4 * tokens.length + 3) le_rfl ⟨by decide,by decide⟩
    rw [List.append_nil] at hread
    exact Option.bind_eq_some_iff.mpr ⟨_,hread,rfl⟩

end Complete
end Dodam.Execution
