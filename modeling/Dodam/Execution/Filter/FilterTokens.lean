import Dodam.Execution.ColumnIndex
import Dodam.Execution.Filter.Comparison

/-! # The tokens of a filter text

A filter text is cut into quoted strings, operators, commas, parentheses, keywords and
identifiers; an identifier keeps the text of its parentheses. Texts are lists of characters.
-/
namespace Dodam.Execution
open Foundation

inductive FilterToken
  | ident (value : List Char)
  | string (value : List Char)
  | op (op : ComparisonOp)
  | comma
  | lparen
  | rparen
  | and
  | or
  | not
  | in'
  | is
  | null
deriving DecidableEq

section Read

/-- The rest of a quoted text: its value and what follows it. -/
def readQuoted (quote : Char) : Bool → List Char → Option (List Char × List Char)
  | _,[] => none
  | true,c :: rest => (readQuoted quote false rest).map fun (value,rest) => (c :: value,rest)
  | false,c :: rest =>
    if c = '\\' then readQuoted quote true rest
    else if c = quote then some ([],rest)
    else (readQuoted quote false rest).map fun (value,rest) => (c :: value,rest)

/-- An exclamation mark is taken off the text also where no operator is read. -/
def readOperator : List Char → Option ComparisonOp × List Char
  | '=' :: rest => (some .eq,rest)
  | '!' :: '=' :: rest => (some .notEq,rest)
  | '!' :: rest => (none,rest)
  | '<' :: '=' :: rest => (some .ltEq,rest)
  | '<' :: rest => (some .lt,rest)
  | '>' :: '=' :: rest => (some .gtEq,rest)
  | '>' :: rest => (some .gt,rest)
  | text => (none,text)

/-- A character that ends an identifier outside its parentheses. -/
def isStop (c : Char) : Bool := isWhitespace c || c ∈ ['=','!','<','>','\'','"',',',')']

/-- The depth of parentheses is a `u32` that saturates. -/
def nextDepth (depth : ℕ) (c : Char) : ℕ :=
  if c = '(' then min (depth + 1) (2 ^ 32 - 1) else if c = ')' then depth - 1 else depth

def readIdent (depth : ℕ) : List Char → List Char × List Char
  | [] => ([],[])
  | c :: rest =>
    if depth = 0 ∧ isStop c then ([],c :: rest)
    else (c :: (readIdent (nextDepth depth c) rest).1,(readIdent (nextDepth depth c) rest).2)

def identToken (value : List Char) : FilterToken :=
  if eqIgnoreAsciiCase value "and".toList then .and
  else if eqIgnoreAsciiCase value "or".toList then .or
  else if eqIgnoreAsciiCase value "not".toList then .not
  else if eqIgnoreAsciiCase value "in".toList then .in'
  else if eqIgnoreAsciiCase value "is".toList then .is
  else if eqIgnoreAsciiCase value "null".toList then .null
  else .ident value

/-- One turn of the loop of `tokenize_filter`, at a text that is not empty. -/
def readToken (c : Char) (rest : List Char) : Option (Option FilterToken × List Char) :=
  if isWhitespace c then some (none,rest)
  else if c = '\'' ∨ c = '"' then (readQuoted c false rest).map fun (value,rest) => (some (.string value),rest)
  else if c = '(' then some (some .lparen,rest)
  else if c = ')' then some (some .rparen,rest)
  else if c = ',' then some (some .comma,rest)
  else
    match readOperator (c :: rest) with
    | (some op,rest) => some (some (.op op),rest)
    | (none,text) =>
      if (readIdent 0 text).1 = [] then none
      else some (some (identToken (readIdent 0 text).1),(readIdent 0 text).2)

theorem readQuoted_length {quote : Char} {escaped : Bool} {text value rest : List Char}
    (h : readQuoted quote escaped text = some (value,rest)) : rest.length < text.length := by
  induction text generalizing escaped value with
  | nil => cases escaped <;> simp [readQuoted] at h
  | cons c text ih =>
    cases escaped with
    | true =>
      obtain ⟨⟨value',rest'⟩,hread,heq⟩ := Option.map_eq_some_iff.mp h
      cases heq
      exact Nat.lt_succ_of_lt (ih hread)
    | false =>
      rw [readQuoted] at h
      split_ifs at h
      · exact Nat.lt_succ_of_lt (ih h)
      · cases h
        exact Nat.lt_succ_self _
      · obtain ⟨⟨value',rest'⟩,hread,heq⟩ := Option.map_eq_some_iff.mp h
        cases heq
        exact Nat.lt_succ_of_lt (ih hread)

theorem readIdent_append (depth : ℕ) (text : List Char) : (readIdent depth text).1 ++ (readIdent depth text).2 = text := by
  induction text generalizing depth with
  | nil => rfl
  | cons c text ih =>
    rw [readIdent]
    split_ifs
    · rfl
    · exact congrArg (c :: ·) (ih _)

def opText : ComparisonOp → List Char
  | .eq => ['=']
  | .notEq => ['!','=']
  | .lt => ['<']
  | .ltEq => ['<','=']
  | .gt => ['>']
  | .gtEq => ['>','=']

theorem readOperator_cases (c : Char) (rest : List Char) :
    (∃ op after, readOperator (c :: rest) = (some op,after) ∧ c :: rest = opText op ++ after) ∨
      (c = '!' ∧ rest.head? ≠ some '=' ∧ readOperator (c :: rest) = (none,rest)) ∨
        (c ∉ ['=','!','<','>'] ∧ readOperator (c :: rest) = (none,c :: rest)) := by
  unfold readOperator
  split
  case h_1 rest heq => exact .inl ⟨.eq,rest,rfl,heq⟩
  case h_2 rest heq => exact .inl ⟨.notEq,rest,rfl,heq⟩
  case h_3 rest' hne heq =>
    obtain ⟨rfl,rfl⟩ := List.cons.inj heq
    refine .inr (.inl ⟨rfl,fun hhead => ?_,rfl⟩)
    obtain ⟨after,rfl⟩ := List.head?_eq_some_iff.mp hhead
    exact hne after rfl
  case h_4 rest heq => exact .inl ⟨.ltEq,rest,rfl,heq⟩
  case h_5 rest _ heq => exact .inl ⟨.lt,rest,rfl,heq⟩
  case h_6 rest heq => exact .inl ⟨.gtEq,rest,rfl,heq⟩
  case h_7 rest _ heq => exact .inl ⟨.gt,rest,rfl,heq⟩
  case h_8 heq _ hbang _ hlt _ hgt =>
    refine .inr (.inr ⟨?_,rfl⟩)
    simp only [List.mem_cons,List.not_mem_nil,or_false,not_or]
    exact ⟨fun h => heq rest (h ▸ rfl),fun h => hbang rest (h ▸ rfl),fun h => hlt rest (h ▸ rfl),
      fun h => hgt rest (h ▸ rfl)⟩

theorem readToken_length {c : Char} {rest remaining : List Char} {token : Option FilterToken}
    (h : readToken c rest = some (token,remaining)) : remaining.length < (c :: rest).length := by
  unfold readToken at h
  split_ifs at h
  · cases h
    exact Nat.lt_succ_self _
  · obtain ⟨⟨value,after⟩,hread,heq⟩ := Option.map_eq_some_iff.mp h
    cases heq
    exact Nat.lt_succ_of_lt (readQuoted_length hread)
  · cases h
    exact Nat.lt_succ_self _
  · cases h
    exact Nat.lt_succ_self _
  · cases h
    exact Nat.lt_succ_self _
  · have hident : ∀ text : List Char, (readIdent 0 text).1 ≠ [] → (readIdent 0 text).2.length < text.length := by
      intro text hne
      have happend := congrArg List.length (readIdent_append 0 text)
      have hpos := List.length_pos_of_ne_nil hne
      rw [List.length_append] at happend
      omega
    rcases readOperator_cases c rest with ⟨op,after,hread,htext⟩ | ⟨-,-,hread⟩ | ⟨-,hread⟩
    · rw [hread] at h
      cases h
      rw [htext,List.length_append]
      cases op <;> simp [opText]
    · simp only [hread] at h
      split_ifs at h with hne
      cases h
      exact Nat.lt_succ_of_lt (hident rest hne)
    · simp only [hread] at h
      split_ifs at h with hne
      cases h
      exact hident (c :: rest) hne

end Read

section Tokenize
attribute [local irreducible] readToken

def tokenizeFrom (text : List Char) : Option (List FilterToken) :=
  match text with
  | [] => some []
  | c :: rest =>
    match h : readToken c rest with
    | none => none
    | some (token,remaining) =>
      have := readToken_length h
      (tokenizeFrom remaining).map (token.toList ++ ·)
termination_by text.length
decreasing_by exact this

def tokenizeFilter (text : List Char) : Option (List FilterToken) := (tokenizeFrom text).filter (· ≠ [])

theorem tokenizeFrom_cons (c : Char) (rest : List Char) :
    tokenizeFrom (c :: rest) =
      (readToken c rest).bind fun (token,remaining) => (tokenizeFrom remaining).map (token.toList ++ ·) := by
  rw [tokenizeFrom]
  split
  · rename_i h
    rw [h]
    rfl
  · rename_i token remaining h
    simp only [h,Option.bind_some]

theorem tokenizeFrom_step {c : Char} {rest remaining : List Char} {token : Option FilterToken} {tokens : List FilterToken}
    (hread : readToken c rest = some (token,remaining)) (hmore : tokenizeFrom remaining = some tokens) :
    tokenizeFrom (c :: rest) = some (token.toList ++ tokens) := by
  rw [tokenizeFrom_cons,hread,Option.bind_some]
  simp only [hmore]
  rfl

end Tokenize

section Spelling

def keywordText : FilterToken → Option (List Char)
  | .and => some "and".toList
  | .or => some "or".toList
  | .not => some "not".toList
  | .in' => some "in".toList
  | .is => some "is".toList
  | .null => some "null".toList
  | _ => none

def symbolText : FilterToken → Option (List Char)
  | .op op => some (opText op)
  | .comma => some [',']
  | .lparen => some ['(']
  | .rparen => some [')']
  | _ => none

inductive Lexeme : FilterToken → List Char → Prop
  | symbol {token text} : symbolText token = some text → Lexeme token text
  | keyword {token text word} : keywordText token = some word → eqIgnoreAsciiCase text word → Lexeme token text
  | ident {c value} : ¬ isStop c → c ≠ '(' → Lexeme (.ident (c :: value)) (c :: value)
  | quoted {quote body value} : quote = '\'' ∨ quote = '"' → readQuoted quote false body = some (value,[]) →
      Lexeme (.string value) (quote :: body)

/-- A text that is tokens and blanks, and nothing else. -/
inductive Spells : List Char → List FilterToken → Prop
  | done : Spells [] []
  | blank {c text tokens} : isWhitespace c → Spells text tokens → Spells (c :: text) tokens
  | token {token lexeme text tokens} : Lexeme token lexeme → Spells text tokens → Spells (lexeme ++ text) (token :: tokens)

/-- The depth after a text that no stop ends. -/
def identDepth (depth : ℕ) : List Char → Option ℕ
  | [] => some depth
  | c :: rest => if depth = 0 ∧ isStop c then none else identDepth (nextDepth depth c) rest

/-- A text that is read as one identifier whatever blank follows. -/
def IsIdent (value : List Char) : Prop :=
  (∃ c ∈ value.head?, ¬ isStop c ∧ c ≠ '(') ∧ identDepth 0 value = some 0 ∧ identToken value = .ident value

def Plain : FilterToken → Prop
  | .ident value => IsIdent value
  | _ => True

variable {value rest text : List Char} {quote c : Char}

theorem readIdent_of_depth {depth depth' : ℕ} (h : identDepth depth value = some depth')
    (more : List Char) :
    readIdent depth (value ++ more) = (value ++ (readIdent depth' more).1,(readIdent depth' more).2) := by
  induction value generalizing depth with
  | nil =>
    cases h
    rfl
  | cons c value ih =>
    rw [identDepth] at h
    split_ifs at h with hstop
    rw [List.cons_append,readIdent,if_neg hstop,ih h]
    rfl

theorem identDepth_readIdent (depth : ℕ) (text : List Char) :
    ∃ depth', identDepth depth (readIdent depth text).1 = some depth' ∧
      ((readIdent depth text).2 = [] ∨ depth' = 0 ∧ ∃ c ∈ (readIdent depth text).2.head?, isStop c) := by
  induction text generalizing depth with
  | nil => exact ⟨depth,rfl,.inl rfl⟩
  | cons c text ih =>
    rw [readIdent]
    split_ifs with hstop
    · exact ⟨depth,rfl,.inr ⟨hstop.1,c,rfl,hstop.2⟩⟩
    · obtain ⟨depth',hdepth,hend⟩ := ih (nextDepth depth c)
      exact ⟨depth',by rw [identDepth,if_neg hstop]; exact hdepth,hend⟩

theorem readQuoted_append {escaped : Bool} {body : List Char}
    (h : readQuoted quote escaped body = some (value,rest)) (more : List Char) :
    readQuoted quote escaped (body ++ more) = some (value,rest ++ more) := by
  induction body generalizing escaped value with
  | nil => cases escaped <;> cases h
  | cons c body ih =>
    cases escaped with
    | true =>
      obtain ⟨⟨value',rest'⟩,hread,heq⟩ := Option.map_eq_some_iff.mp h
      cases heq
      exact Option.map_eq_some_iff.mpr ⟨_,ih hread,rfl⟩
    | false =>
      rw [readQuoted] at h
      rw [List.cons_append,readQuoted]
      split_ifs at h ⊢
      · exact ih h
      · cases h
        rfl
      · obtain ⟨⟨value',rest'⟩,hread,heq⟩ := Option.map_eq_some_iff.mp h
        cases heq
        exact Option.map_eq_some_iff.mpr ⟨_,ih hread,rfl⟩

theorem exists_readQuoted {escaped : Bool} (h : readQuoted quote escaped text = some (value,rest)) :
    ∃ body, text = body ++ rest ∧ readQuoted quote escaped body = some (value,[]) := by
  induction text generalizing escaped value with
  | nil => cases escaped <;> cases h
  | cons c text ih =>
    cases escaped with
    | true =>
      obtain ⟨⟨value',rest'⟩,hread,heq⟩ := Option.map_eq_some_iff.mp h
      cases heq
      obtain ⟨body,htext,hbody⟩ := ih hread
      exact ⟨c :: body,by rw [htext,List.cons_append],Option.map_eq_some_iff.mpr ⟨_,hbody,rfl⟩⟩
    | false =>
      rw [readQuoted] at h
      split_ifs at h with hslash hquote
      · obtain ⟨body,htext,hbody⟩ := ih h
        exact ⟨c :: body,by rw [htext,List.cons_append],by rw [readQuoted,if_pos hslash]; exact hbody⟩
      · cases h
        exact ⟨[c],rfl,by rw [readQuoted,if_neg hslash,if_pos hquote]⟩
      · obtain ⟨⟨value',rest'⟩,hread,heq⟩ := Option.map_eq_some_iff.mp h
        cases heq
        obtain ⟨body,htext,hbody⟩ := ih hread
        refine ⟨c :: body,by rw [htext,List.cons_append],?_⟩
        rw [readQuoted,if_neg hslash,if_neg hquote]
        exact Option.map_eq_some_iff.mpr ⟨_,hbody,rfl⟩

theorem readIdent_head (h : (readIdent 0 text).1 ≠ []) :
    ∃ c value, (readIdent 0 text).1 = c :: value ∧ text = c :: value ++ (readIdent 0 text).2 ∧ ¬ isStop c := by
  cases text with
  | nil => exact (h rfl).elim
  | cons c rest =>
    have happend := readIdent_append 0 (c :: rest)
    rw [readIdent] at h happend ⊢
    split_ifs at h happend ⊢ with hstop
    · exact (h rfl).elim
    · exact ⟨c,_,rfl,happend.symm,fun h => hstop ⟨rfl,h⟩⟩

theorem lexeme_identToken (hstop : ¬ isStop c) (hparen : c ≠ '(') :
    Lexeme (identToken (c :: value)) (c :: value) := by
  unfold identToken
  split_ifs with hand hor hnot hin his hnull
  · exact .keyword rfl hand
  · exact .keyword rfl hor
  · exact .keyword rfl hnot
  · exact .keyword rfl hin
  · exact .keyword rfl his
  · exact .keyword rfl hnull
  · exact .ident hstop hparen

theorem plain_identToken (hstop : ¬ isStop c) (hparen : c ≠ '(')
    (hdepth : identDepth 0 (c :: value) = some 0) : Plain (identToken (c :: value)) := by
  by_cases h : identToken (c :: value) = .ident (c :: value)
  · rw [h]
    exact ⟨⟨c,rfl,hstop,hparen⟩,hdepth,h⟩
  · unfold identToken at h ⊢
    split_ifs at h ⊢
    all_goals trivial

end Spelling
section LoneBang

/-- Where a text is being read: between tokens, in a quoted string, or in an identifier. -/
inductive Scan
  | between
  | quoted (quote : Char) (escaped : Bool)
  | name (depth : ℕ)

def Scan.enter (c : Char) : Scan :=
  if c = '\'' ∨ c = '"' then .quoted c false else if isStop c ∨ c = '(' then .between else .name 0

def Scan.next : Scan → Char → Scan
  | .between,c => enter c
  | .quoted quote true,_ => .quoted quote false
  | .quoted quote false,c => if c = '\\' then .quoted quote true else if c = quote then .between else .quoted quote false
  | .name depth,c => if depth = 0 ∧ isStop c then enter c else .name (nextDepth depth c)

def Scan.atToken : Scan → Bool
  | .between | .name 0 => true
  | _ => false

/-- An exclamation mark that no equality sign follows, outside quotes and outside the parentheses of
identifiers. -/
def loneBang : Scan → List Char → Bool
  | _,[] => false
  | scan,c :: rest => (scan.atToken && c = '!' && rest.head? ≠ some '=') || loneBang (scan.next c) rest

variable {text value rest : List Char} {c : Char}

theorem loneBang_quoted {quote : Char} {escaped : Bool}
    (h : readQuoted quote escaped text = some (value,rest)) :
    loneBang (.quoted quote escaped) text = loneBang .between rest := by
  induction text generalizing escaped value with
  | nil => cases escaped <;> cases h
  | cons c text ih =>
    cases escaped with
    | true =>
      obtain ⟨⟨value',rest'⟩,hread,heq⟩ := Option.map_eq_some_iff.mp h
      cases heq
      exact ih hread
    | false =>
      rw [readQuoted] at h
      simp only [loneBang,Scan.atToken,Bool.false_and,Bool.false_or,Scan.next]
      split_ifs at h ⊢
      · exact ih h
      · cases h
        rfl
      · obtain ⟨⟨value',rest'⟩,hread,heq⟩ := Option.map_eq_some_iff.mp h
        cases heq
        exact ih hread

theorem loneBang_stop (h : text = [] ∨ ∃ c ∈ text.head?, isStop c) :
    loneBang (.name 0) text = loneBang .between text := by
  cases text with
  | nil => rfl
  | cons c rest =>
    rcases h with h | ⟨c',hc',hstop⟩
    · cases h
    · cases hc'
      simp only [loneBang,Scan.atToken,Scan.next,hstop,and_self,if_true]

theorem loneBang_ident {depth depth' : ℕ} (h : identDepth depth value = some depth')
    (more : List Char) : loneBang (.name depth) (value ++ more) = loneBang (.name depth') more := by
  induction value generalizing depth with
  | nil =>
    cases h
    rfl
  | cons c value ih =>
    rw [identDepth] at h
    split_ifs at h with hstop
    have hbang : ((Scan.name depth).atToken && decide (c = '!') && decide ((value ++ more).head? ≠ some '=')) = false := by
      cases depth with
      | zero =>
        have hc : c ≠ '!' := by
          rintro rfl
          exact hstop ⟨rfl,rfl⟩
        simp [hc]
      | succ depth => rfl
    rw [List.cons_append,loneBang,hbang,Bool.false_or,Scan.next,if_neg hstop,ih h]

theorem isStop_of_blank (h : isWhitespace c) : isStop c := by
  rw [isStop,h,Bool.true_or]

theorem loneBang_between (hstop : isStop c) (hquote : ¬ (c = '\'' ∨ c = '"'))
    (hbang : c ≠ '!') : loneBang .between (c :: rest) = loneBang .between rest := by
  rw [loneBang,decide_eq_false hbang,Bool.and_false,Bool.false_and,Bool.false_or,Scan.next,Scan.enter,if_neg hquote,
    if_pos (.inl hstop)]

theorem loneBang_name (hstop : ¬ isStop c) (hparen : c ≠ '(')
    (hquote : ¬ (c = '\'' ∨ c = '"')) : loneBang .between (c :: rest) = loneBang (.name 0) (c :: rest) := by
  have hrparen : c ≠ ')' := by
    rintro rfl
    exact hstop rfl
  rw [loneBang,loneBang,Scan.next,Scan.next,Scan.enter,if_neg hquote,if_neg (not_or.mpr ⟨hstop,hparen⟩),
    if_neg fun h => hstop h.2,nextDepth,if_neg hparen,if_neg hrparen]
  rfl

/-- What one turn reads: a blank, a token with its text, or an exclamation mark and what follows it. -/
theorem readToken_cases {remaining : List Char} {token : Option FilterToken}
    (h : readToken c rest = some (token,remaining)) :
    (isWhitespace c ∧ token = none ∧ remaining = rest ∧ loneBang .between (c :: rest) = loneBang .between remaining) ∨
      (∃ t lexeme, token = some t ∧ Lexeme t lexeme ∧ c :: rest = lexeme ++ remaining ∧ (remaining ≠ [] → Plain t) ∧
        loneBang .between (c :: rest) = loneBang .between remaining) ∨
        (c = '!' ∧ loneBang .between (c :: rest) = true ∧
          ∃ c' value, ¬ isStop c' ∧ token = some (identToken (c' :: value)) ∧ rest = c' :: value ++ remaining) := by
  unfold readToken at h
  split_ifs at h with hblank hquote hlparen hrparen hcomma
  · cases h
    exact .inl ⟨hblank,rfl,rfl,loneBang_between (isStop_of_blank hblank)
      (by rintro (rfl | rfl) <;> exact absurd hblank (by decide)) (by rintro rfl; exact absurd hblank (by decide))⟩
  · obtain ⟨⟨value,after⟩,hread,heq⟩ := Option.map_eq_some_iff.mp h
    cases heq
    obtain ⟨body,htext,hbody⟩ := exists_readQuoted hread
    refine .inr (.inl ⟨.string value,c :: body,rfl,.quoted hquote hbody,by rw [htext,List.cons_append],fun _ => trivial,?_⟩)
    have hbang : c ≠ '!' := by
      rintro rfl
      exact absurd hquote (by decide)
    rw [loneBang,decide_eq_false hbang,Bool.and_false,Bool.false_and,Bool.false_or,Scan.next,Scan.enter,if_pos hquote]
    exact loneBang_quoted hread
  · cases h
    exact .inr (.inl ⟨.lparen,['('],rfl,.symbol rfl,hlparen ▸ rfl,fun _ => trivial,by rw [hlparen]; rfl⟩)
  · cases h
    exact .inr (.inl ⟨.rparen,[')'],rfl,.symbol rfl,hrparen ▸ rfl,fun _ => trivial,by rw [hrparen]; rfl⟩)
  · cases h
    exact .inr (.inl ⟨.comma,[','],rfl,.symbol rfl,hcomma ▸ rfl,fun _ => trivial,by rw [hcomma]; rfl⟩)
  · rcases readOperator_cases c rest with ⟨op,after,hread,htext⟩ | ⟨hbang,hnext,hread⟩ | ⟨hop,hread⟩
    · rw [hread] at h
      cases h
      exact .inr (.inl ⟨.op op,opText op,rfl,.symbol rfl,htext,fun _ => trivial,by rw [htext]; cases op <;> rfl⟩)
    · simp only [hread] at h
      split_ifs at h with hne
      obtain ⟨c',value,hvalue,htext,hstop⟩ := readIdent_head hne
      rw [hvalue] at h
      cases h
      exact .inr (.inr ⟨hbang,by simp [loneBang,Scan.atToken,hbang,hnext],c',value,hstop,rfl,htext⟩)
    · simp only [hread] at h
      split_ifs at h with hne
      obtain ⟨c',value,hvalue,htext,hstop⟩ := readIdent_head hne
      obtain ⟨rfl,-⟩ := List.cons.inj htext
      obtain ⟨depth,hdepth,hend⟩ := identDepth_readIdent 0 (c :: rest)
      rw [hvalue] at h hdepth
      cases h
      refine .inr (.inl ⟨_,_,rfl,lexeme_identToken hstop hlparen,htext,fun hmore => ?_,?_⟩)
      · exact plain_identToken hstop hlparen ((hend.resolve_left hmore).1 ▸ hdepth)
      · have hscan : loneBang (.name 0) (c :: rest) = loneBang (.name depth) (readIdent 0 (c :: rest)).2 :=
          (congrArg (loneBang (.name 0)) htext).trans (loneBang_ident hdepth _)
        rw [loneBang_name hstop hlparen hquote,hscan]
        rcases hend with hend | ⟨rfl,hend⟩
        · rw [hend]
          rfl
        · exact loneBang_stop (.inr hend)

end LoneBang
section Contributes

theorem toLower_of_blank {c : Char} (h : isWhitespace c) : c.toLower = c := by
  have hno : ¬ (c.val ≥ 'A'.val ∧ c.val ≤ 'Z'.val) := by
    intro hupper
    have hlow : 65 ≤ c.toNat := hupper.1
    have hhigh : c.toNat ≤ 90 := hupper.2
    simp only [isWhitespace,Bool.or_eq_true,Bool.and_eq_true,decide_eq_true_eq] at h
    omega
  exact dif_neg hno

variable {token : FilterToken} {lexeme text : List Char} {tokens : List FilterToken}

/-- A token is neither empty nor does it begin with a blank or, but for `!=`, with an exclamation mark. -/
theorem lexeme_head (h : Lexeme token lexeme) :
    ∃ c rest, lexeme = c :: rest ∧ ¬ isWhitespace c ∧ (c = '!' → token = .op .notEq) := by
  cases h with
  | symbol hsymbol =>
    cases token with
    | op op =>
      cases hsymbol
      cases op <;> exact ⟨_,_,rfl,by decide,by decide⟩
    | comma | lparen | rparen =>
      cases hsymbol
      exact ⟨_,_,rfl,by decide,by decide⟩
    | _ => cases hsymbol
  | keyword hword heq =>
    have heq := of_decide_eq_true heq
    cases lexeme with
    | nil => cases token <;> cases hword <;> cases heq
    | cons c rest =>
      refine ⟨c,rest,rfl,fun hblank => ?_,?_⟩
      · rw [List.map_cons,toLower_of_blank hblank] at heq
        cases token <;> cases hword <;> exact absurd hblank ((List.cons.inj heq).1 ▸ by decide)
      · rintro rfl
        cases token <;> cases hword <;> exact absurd (List.cons.inj heq).1 (by decide)
  | @ident c value hstop hparen =>
    refine ⟨c,value,rfl,fun hblank => hstop (isStop_of_blank hblank),?_⟩
    rintro rfl
    exact (hstop rfl).elim
  | @quoted quote body value hquote hread =>
    refine ⟨quote,body,rfl,?_,?_⟩
    · rcases hquote with rfl | rfl <;> decide
    · rintro rfl
      exact absurd hquote (by decide)

theorem lexeme_unique {lexeme' text' : List Char} (h : Lexeme token lexeme)
    (h' : Lexeme token lexeme') (heq : lexeme ++ text = lexeme' ++ text') : lexeme = lexeme' ∧ text = text' := by
  cases h with
  | symbol hsymbol =>
    cases h' with
    | symbol hsymbol' => exact List.append_inj heq (congrArg List.length (Option.some.inj (hsymbol.symm.trans hsymbol')))
    | keyword hword _ => cases token <;> cases hsymbol <;> cases hword
    | ident _ _ | quoted _ _ => cases hsymbol
  | keyword hword hfold =>
    cases h' with
    | symbol hsymbol => cases token <;> cases hsymbol <;> cases hword
    | keyword hword' hfold' =>
      have hsame := hword.symm.trans hword'
      have hlength := congrArg List.length (of_decide_eq_true hfold)
      have hlength' := congrArg List.length (of_decide_eq_true hfold')
      rw [Option.some.inj hsame] at hlength
      simp only [List.length_map] at hlength hlength'
      exact List.append_inj heq (hlength.trans hlength'.symm)
    | ident _ _ | quoted _ _ => cases hword
  | ident hstop hparen =>
    cases h' with
    | symbol hsymbol => cases hsymbol
    | keyword hword _ => cases hword
    | ident _ _ => exact List.append_inj heq rfl
  | @quoted quote body value hquote hread =>
    cases h' with
    | symbol hsymbol => cases hsymbol
    | keyword hword _ => cases hword
    | @quoted quote' body' _ hquote' hread' =>
      rw [List.cons_append,List.cons_append] at heq
      obtain ⟨rfl,hbody⟩ := List.cons.inj heq
      have hrest := readQuoted_append hread text
      rw [hbody,readQuoted_append hread' text'] at hrest
      obtain rfl : text' = text := (Prod.mk.inj (Option.some.inj hrest)).2
      exact ⟨by rw [List.append_cancel_right hbody],rfl⟩

theorem spells_blank {c : Char} (hblank : isWhitespace c) :
    Spells (c :: text) tokens ↔ Spells text tokens := by
  refine ⟨fun h => ?_,.blank hblank⟩
  generalize hwhole : c :: text = whole at h
  cases h with
  | done => cases hwhole
  | blank _ hrest =>
    cases hwhole
    exact hrest
  | token hlexeme hrest =>
    obtain ⟨c',rest,rfl,hno,-⟩ := lexeme_head hlexeme
    cases hwhole
    exact (hno hblank).elim

theorem spells_lexeme
    (h : Lexeme token lexeme) : Spells (lexeme ++ text) (token :: tokens) ↔ Spells text tokens := by
  refine ⟨fun hspells => ?_,.token h⟩
  generalize hwhole : lexeme ++ text = whole at hspells
  cases hspells with
  | blank hblank _ =>
    obtain ⟨c',rest,rfl,hno,-⟩ := lexeme_head h
    cases hwhole
    exact (hno hblank).elim
  | token hlexeme hrest =>
    obtain ⟨-,rfl⟩ := lexeme_unique h hlexeme hwhole
    exact hrest

theorem not_spells_bang {c : Char} {value : List Char} :
    ¬ Spells ('!' :: text) (identToken (c :: value) :: tokens) := by
  intro h
  generalize hwhole : '!' :: text = whole at h
  cases h with
  | blank hblank _ =>
    cases hwhole
    exact absurd hblank (by decide)
  | token hlexeme hrest =>
    obtain ⟨c',rest,rfl,-,hbang⟩ := lexeme_head hlexeme
    cases hwhole
    have hno : identToken (c :: value) ≠ .op .notEq := by
      unfold identToken
      split_ifs <;> exact FilterToken.noConfusion
    exact hno (hbang rfl)

/-- A text is spelled by its tokens exactly if it has no lone exclamation mark. -/
theorem spells_tokenizeFrom (h : tokenizeFrom text = some tokens) :
    (Spells text tokens ↔ loneBang .between text = false) ∧
      (loneBang .between text = false → tokens.IsChain fun token _ => Plain token) := by
  induction hn : text.length using Nat.strong_induction_on generalizing text tokens with
  | _ n ih =>
    subst hn
    cases text with
    | nil =>
      rw [tokenizeFrom] at h
      cases h
      exact ⟨iff_of_true .done rfl,fun _ => List.isChain_nil⟩
    | cons c rest =>
      rw [tokenizeFrom_cons] at h
      obtain ⟨⟨token,remaining⟩,hread,hmore⟩ := Option.bind_eq_some_iff.mp h
      obtain ⟨tokens',hrest,rfl⟩ := Option.map_eq_some_iff.mp hmore
      obtain ⟨hspells,hplain⟩ := ih remaining.length (readToken_length hread) hrest rfl
      rcases readToken_cases hread with ⟨hblank,rfl,rfl,hbang⟩ | ⟨t,lexeme,rfl,hlexeme,htext,hlast,hbang⟩ |
        ⟨rfl,hbang,c',value,hstop,rfl,rfl⟩
      · rw [hbang]
        exact ⟨(spells_blank hblank).trans hspells,hplain⟩
      · rw [hbang,htext]
        refine ⟨(spells_lexeme hlexeme).trans hspells,fun hno => ?_⟩
        cases tokens' with
        | nil => exact List.isChain_singleton _
        | cons t' tokens' =>
          refine List.isChain_cons_cons.mpr ⟨hlast ?_,hplain hno⟩
          rintro rfl
          rw [tokenizeFrom] at hrest
          cases hrest
      · rw [hbang]
        exact ⟨iff_of_false not_spells_bang (by decide),fun hno => by cases hno⟩

end Contributes
section Render

def escapeQuoted (value : List Char) : List Char :=
  value.flatMap fun c => if c = '\\' ∨ c = '\'' then ['\\',c] else [c]

def tokenText : FilterToken → List Char
  | .ident value => value
  | .string value => '\'' :: escapeQuoted value ++ ['\'']
  | .op op => opText op
  | .comma => [',']
  | .lparen => ['(']
  | .rparen => [')']
  | .and => "AND".toList
  | .or => "OR".toList
  | .not => "NOT".toList
  | .in' => "IN".toList
  | .is => "IS".toList
  | .null => "NULL".toList

def render (tokens : List FilterToken) : List Char := tokens.flatMap fun token => tokenText token ++ [' ']

theorem readQuoted_escape (value more : List Char) :
    readQuoted '\'' false (escapeQuoted value ++ '\'' :: more) = some (value,more) := by
  induction value with
  | nil => rfl
  | cons c value ih =>
    have hcons : escapeQuoted (c :: value) =
        (if c = '\\' ∨ c = '\'' then ['\\',c] else [c]) ++ escapeQuoted value := List.flatMap_cons
    rw [hcons]
    split_ifs with hc
    · exact Option.map_eq_some_iff.mpr ⟨_,ih,rfl⟩
    · rw [not_or] at hc
      rw [List.append_assoc,List.singleton_append,readQuoted,if_neg hc.1,if_neg hc.2,ih]
      rfl

theorem readToken_ident {c : Char} {value : List Char} (hstop : ¬ isStop c) (hparen : c ≠ '(')
    (hdepth : identDepth 0 (c :: value) = some 0) (more : List Char) :
    readToken c (value ++ ' ' :: more) = some (some (identToken (c :: value)),' ' :: more) := by
  have hread := readIdent_of_depth hdepth (' ' :: more)
  have hblank : readIdent 0 (' ' :: more) = ([],' ' :: more) := if_pos ⟨rfl,rfl⟩
  rw [hblank,List.append_nil,List.cons_append] at hread
  have hop : readOperator (c :: (value ++ ' ' :: more)) = (none,c :: (value ++ ' ' :: more)) := by
    rcases readOperator_cases c (value ++ ' ' :: more) with ⟨op,after,-,htext⟩ | ⟨rfl,-,-⟩ | ⟨-,hread⟩
    · cases op <;> exact absurd ((List.cons.inj htext).1 ▸ rfl) hstop
    · exact absurd rfl hstop
    · exact hread
  have hquote : ¬ (c = '\'' ∨ c = '"') := by
    rintro (rfl | rfl) <;> exact hstop rfl
  rw [readToken,if_neg fun h => hstop (isStop_of_blank h),if_neg hquote,if_neg hparen,
    if_neg (by rintro rfl; exact hstop rfl),if_neg (by rintro rfl; exact hstop rfl),hop]
  simp only [hread]
  rfl

theorem readToken_tokenText {token : FilterToken} (h : Plain token) (more : List Char) :
    ∃ c rest, tokenText token ++ ' ' :: more = c :: rest ∧ readToken c rest = some (some token,' ' :: more) := by
  cases token with
  | ident value =>
    obtain ⟨⟨c,hc,hstop,hparen⟩,hdepth,hident⟩ := h
    obtain ⟨rest,rfl⟩ := List.head?_eq_some_iff.mp hc
    refine ⟨c,rest ++ ' ' :: more,rfl,?_⟩
    rw [readToken_ident hstop hparen hdepth,hident]
  | string value =>
    refine ⟨'\'',escapeQuoted value ++ '\'' :: ' ' :: more,by simp [tokenText],?_⟩
    exact Option.map_eq_some_iff.mpr ⟨_,readQuoted_escape value (' ' :: more),rfl⟩
  | op op => cases op <;> exact ⟨_,_,rfl,rfl⟩
  | comma | lparen | rparen => exact ⟨_,_,rfl,rfl⟩
  | and => exact ⟨'A',_,rfl,@readToken_ident 'A' "ND".toList (by decide) (by decide) (by decide) more⟩
  | or => exact ⟨'O',_,rfl,@readToken_ident 'O' "R".toList (by decide) (by decide) (by decide) more⟩
  | not => exact ⟨'N',_,rfl,@readToken_ident 'N' "OT".toList (by decide) (by decide) (by decide) more⟩
  | in' => exact ⟨'I',_,rfl,@readToken_ident 'I' "N".toList (by decide) (by decide) (by decide) more⟩
  | is => exact ⟨'I',_,rfl,@readToken_ident 'I' "S".toList (by decide) (by decide) (by decide) more⟩
  | null => exact ⟨'N',_,rfl,@readToken_ident 'N' "ULL".toList (by decide) (by decide) (by decide) more⟩

variable {tokens : List FilterToken}

theorem tokenizeFrom_render (h : ∀ token ∈ tokens, Plain token) :
    tokenizeFrom (render tokens) = some tokens := by
  induction tokens with
  | nil =>
    change tokenizeFrom [] = some []
    rw [tokenizeFrom]
  | cons token tokens ih =>
    rw [List.forall_mem_cons] at h
    have hcons : render (token :: tokens) = tokenText token ++ ' ' :: render tokens := by simp [render]
    obtain ⟨c,rest,htext,hread⟩ := readToken_tokenText h.1 (render tokens)
    have hblank : readToken ' ' (render tokens) = some (none,render tokens) := rfl
    rw [hcons,htext]
    exact tokenizeFrom_step hread (tokenizeFrom_step hblank (ih h.2))

theorem tokenizeFilter_render (hne : tokens ≠ []) (h : ∀ token ∈ tokens, Plain token) :
    tokenizeFilter (render tokens) = some tokens := by
  rw [tokenizeFilter,tokenizeFrom_render h]
  exact Option.filter_eq_some_iff.mpr ⟨rfl,decide_eq_true hne⟩

end Render
end Dodam.Execution
