import Dodam.Optimizer.JoinInputs
import Dodam.Sql.SemijoinKeys

/-! # Binding an outer row

A correlated subquery is run for a row of the outer query by writing the values of the row into
its text.
-/
namespace Dodam.Sql
open Foundation Execution Optimizer

def singleQuote : Char := Char.ofNat 39

def isSqlIdentifierChar (c : Char) : Bool := c.isAlphanum || c = '_'

/-- `to_ascii_lowercase`. -/
def lowerText (text : List Char) : List Char := text.map Char.toLower

def findText (pattern : List Char) : List Char → Option ℕ
  | [] => if pattern = [] then some 0 else none
  | c :: text => if pattern.isPrefixOf (c :: text) then some 0 else (findText pattern text).map (· + 1)

section LocalTables

def tpchAliasPrefix (table : List Char) : Option String :=
  match String.ofList (lowerText table) with
  | "customer" => some "c"
  | "orders" => some "o"
  | "lineitem" => some "l"
  | "part" => some "p"
  | "partsupp" => some "ps"
  | "supplier" => some "s"
  | "nation" => some "n"
  | "region" => some "r"
  | _ => none

/-- The first word, as `split_whitespace` gives it. -/
def firstWord (text : List Char) : Option (List Char) :=
  match (text.dropWhile isWhitespace).takeWhile fun c => !isWhitespace c with
  | [] => none
  | word => some word

def relationPrefix (relation : List Char) : Option String :=
  (firstWord relation).bind fun token =>
    let path := trimBy (· = '"') (trimBy (· = singleQuote) token)
    let file := (splitAll '/' path).getLast?.getD token
    let table := (file.dropSuffix? ".parquet".toList).getD file
    match tpchAliasPrefix table with
    | some letters => some letters
    | none => (table.takeWhile (· ≠ '_')).head?.map fun initial => String.ofList [initial]

def subqueryLocalPrefixes (subquerySql : List Char) : List String :=
  match findText " from ".toList (lowerText subquerySql) with
  | none => []
  | some start =>
    let afterFrom := subquerySql.drop (start + " from ".length)
    let keyword := fun text : String => findText text.toList (lowerText afterFrom)
    let finish := (((keyword " where ").or (keyword " group ")).or (keyword " order ")).getD afterFrom.length
    ((splitAll ',' (afterFrom.take finish)).filterMap relationPrefix).foldl addColumnOnce []

def subqueryProtectsIdentifierPrefix (subquerySql identifier : List Char) : Bool :=
  match splitOnce '_' identifier with
  | none => false
  | some (start,_) => (subqueryLocalPrefixes subquerySql).any fun letters => eqIgnoreAsciiCase letters (String.ofList start)

end LocalTables

section Tokens

/-- The number of characters up to the parenthesis that closes the first one. -/
def matchingParenthesisEnd (depth : ℕ) (inSingleQuote : Bool) (offset : ℕ) : List Char → Option ℕ
  | [] => none
  | c :: text =>
    if c = singleQuote then matchingParenthesisEnd depth (!inSingleQuote) (offset + 1) text
    else if !inSingleQuote && c = '(' then matchingParenthesisEnd (depth + 1) inSingleQuote (offset + 1) text
    else if !inSingleQuote && c = ')' then
      match depth with
      | 0 => none
      | 1 => some (offset + 1)
      | depth + 1 => matchingParenthesisEnd depth inSingleQuote (offset + 1) text
    else matchingParenthesisEnd depth inSingleQuote (offset + 1) text

/-- The length of the subquery in parentheses that a text begins with. -/
def innerSelect (text : List Char) : Option ℕ :=
  match text with
  | '(' :: tail =>
    if "select".toList.isPrefixOf (lowerText (tail.dropWhile isWhitespace)) then matchingParenthesisEnd 0 false 0 text
    else none
  | _ => none

variable (identifier : List Char)

/-- The text begins with the identifier, and no part of a longer one. -/
def isToken (previous : Option Char) (text : List Char) : Bool :=
  identifier.isPrefixOf text && previous.all (fun c => !isSqlIdentifierChar c) &&
    (text.drop identifier.length).head?.all fun c => !isSqlIdentifierChar c

/-- The output of `replace_identifier_tokens` with a gap for every replacement. An empty identifier is replaced at one
place for ever. -/
def tokenGaps : Option Char → Bool → ℕ → List Char → Option (List (Option Char))
  | _,_,_,[] => some []
  | _,inSingleQuote,skip + 1,c :: text => tokenGaps (some c) inSingleQuote skip text
  | previous,inSingleQuote,0,c :: text =>
    if c = singleQuote then (tokenGaps (some c) (!inSingleQuote) 0 text).map (some c :: ·)
    else if !inSingleQuote && isToken identifier previous (c :: text) then
      if identifier = [] then none
      else (tokenGaps (some c) inSingleQuote (identifier.length - 1) text).map (none :: ·)
    else (tokenGaps (some c) inSingleQuote 0 text).map (some c :: ·)

/-- A subquery in parentheses is kept or gone through by itself. -/
def segmentGaps (segment : List Char) : Option (List (Option Char)) :=
  if subqueryProtectsIdentifierPrefix segment identifier then some (segment.map some)
  else tokenGaps identifier none false 0 segment

/-- The output of `replace_identifier_tokens_preserving_local_subqueries` with a gap for every replacement. -/
def preservingGaps : Option Char → Bool → ℕ → List Char → Option (List (Option Char))
  | _,_,_,[] => some []
  | _,inSingleQuote,skip + 1,c :: text => preservingGaps (some c) inSingleQuote skip text
  | previous,inSingleQuote,0,c :: text =>
    match if inSingleQuote then none else innerSelect (c :: text) with
    | some length =>
      (segmentGaps identifier ((c :: text).take length)).bind fun segment =>
        (preservingGaps (some c) inSingleQuote (length - 1) text).map (segment ++ ·)
    | none =>
      if c = singleQuote then (preservingGaps (some c) (!inSingleQuote) 0 text).map (some c :: ·)
      else if !inSingleQuote && isToken identifier previous (c :: text) then
        if identifier = [] then none
        else (preservingGaps (some c) inSingleQuote (identifier.length - 1) text).map (none :: ·)
      else (preservingGaps (some c) inSingleQuote 0 text).map (some c :: ·)

end Tokens

section Binding

inductive BindingPass
  | everywhere (pattern : List Char)
  | tokens (identifier : List Char)

def BindingPass.pattern : BindingPass → List Char
  | everywhere pattern => pattern
  | tokens identifier => identifier

def BindingPass.gaps (pass : BindingPass) (sql : List Char) : Option (List (Option Char)) :=
  match pass with
  | everywhere pattern => some (occurrences pattern 0 sql)
  | tokens identifier => preservingGaps identifier none false 0 sql

def BindingPass.replace (pass : BindingPass) (literal sql : List Char) : Option (List Char) :=
  (pass.gaps sql).map (fillGaps literal)

def unqualifiedColumnMatchesTableAlias (column tableAlias : String) : Bool :=
  match splitOnce '_' column.toList with
  | none => false
  | some (letters,_) => inferTpchTableAlias [tableAlias] (String.ofList letters) = some tableAlias

def behindLastDot (name : List Char) : Option (List Char) :=
  if '.' ∈ name then (splitAll '.' name).getLast? else none

/-- The replacements that are made for a column. -/
def bindingPasses (outerAlias : Option String) (name : String) : List BindingPass :=
  match outerAlias with
  | some outerAlias =>
    [.everywhere (outerAlias ++ "." ++ name).toList,.everywhere (outerAlias ++ " . " ++ name).toList] ++
      if unqualifiedColumnMatchesTableAlias name outerAlias then [.tokens name.toList] else []
  | none =>
    .tokens name.toList :: match behindLastDot name.toList with
      | some unqualified => [.tokens unqualified]
      | none => []

def bindColumn (outerAlias : Option String) (name : String) (literal sql : List Char) : Option (List Char) :=
  (bindingPasses outerAlias name).foldlM (fun sql pass => pass.replace literal sql) sql

variable (floats : Floats) (outerAlias : Option String) (row : ℕ)

def outerLiteral (column : ArrayRef) : Result LiteralValue :=
  if column.isNull row then .ok .null else literalValueFromArray floats column row

/-- The columns one after the other. No result is one that is never reached. -/
def bindOuterColumns : List (String × ArrayRef) → List Char → Option (Result (List Char))
  | [],sql => some (.ok sql)
  | (name,column) :: columns,sql =>
    match outerLiteral floats row column with
    | .error error => some (.error error)
    | .ok literal => (bindColumn outerAlias name (sqlLiteral literal).toList sql).bind (bindOuterColumns columns)

def bindOuterRowReferences (subquerySql : String) (batch : NamedBatch) : Option (Result String) :=
  (bindOuterColumns floats outerAlias row batch.columns subquerySql.toList).map fun bound => bound.map String.ofList

end Binding
end Dodam.Sql

/-! ## Binding an outer row is substitution

The text of a subquery is cut into the references to outer columns and what is
between them. As long as every pass finds just the references that it is for in the
text that has been bound so far, the text in the end is the one with every
reference replaced by the literal of its column. A single pass does so for no other
reason, unless the literal begins like the name it is written over.
-/
namespace Dodam.Sql
open Foundation Execution

/-- A part of the text of a subquery: a reference to a column of the outer batch, as it is spelled, or other text. -/
inductive SqlPiece
  | text (chars : List Char)
  | outer (column : ℕ) (spelling : List Char)

namespace SqlPiece

def chars : SqlPiece → List Char
  | text chars => chars
  | outer _ spelling => spelling

def gaps (column : ℕ) (pattern : List Char) : SqlPiece → List (Option Char)
  | text chars => chars.map some
  | outer c spelling => if c = column ∧ spelling = pattern then [none] else spelling.map some

def bind (column : ℕ) (pattern literal : List Char) : SqlPiece → SqlPiece
  | text chars => text chars
  | outer c spelling => if c = column ∧ spelling = pattern then text literal else outer c spelling

def value (literals : List LiteralValue) : SqlPiece → List Char
  | text chars => chars
  | outer c spelling => (literals[c]?.map fun literal => (sqlLiteral literal).toList).getD spelling

end SqlPiece

def writtenSql (pieces : List SqlPiece) : List Char := pieces.flatMap SqlPiece.chars

/-- The text with the literals in the place of the references. -/
def substitutedSql (literals : List LiteralValue) (pieces : List SqlPiece) : List Char :=
  pieces.flatMap (SqlPiece.value literals)

section Pass
variable {pass : BindingPass} {column : ℕ} {literal pattern : List Char} {pieces : List SqlPiece}

/-- A pass finds the references to a column that are spelled as its pattern, and nothing else. -/
def BindingPass.FindsReferences (pass : BindingPass) (column : ℕ) (pieces : List SqlPiece) : Prop :=
  pass.gaps (writtenSql pieces) = some (pieces.flatMap (SqlPiece.gaps column pass.pattern))

theorem fillGaps_gaps (column : ℕ) (pattern literal : List Char) (pieces : List SqlPiece) :
    fillGaps literal (pieces.flatMap (SqlPiece.gaps column pattern)) =
      writtenSql (pieces.map (SqlPiece.bind column pattern literal)) := by
  induction pieces with
  | nil => rfl
  | cons piece pieces ih =>
    have hpiece : fillGaps literal (piece.gaps column pattern) = (piece.bind column pattern literal).chars := by
      cases piece with
      | text chars => exact fillGaps_map_some chars
      | outer c spelling =>
        unfold SqlPiece.gaps SqlPiece.bind
        dsimp only
        split_ifs with h
        · exact List.append_nil literal
        · exact fillGaps_map_some spelling
    rw [List.flatMap_cons,fillGaps_append,ih,hpiece]
    rfl

theorem replace_of_findsReferences (h : pass.FindsReferences column pieces) :
    pass.replace literal (writtenSql pieces) = some (writtenSql (pieces.map (SqlPiece.bind column pass.pattern literal))) := by
  unfold BindingPass.replace
  rw [h,← fillGaps_gaps]
  rfl

end Pass

section Found
variable {identifier : List Char}

end Found

section Run

structure BindingStep where
  column : ℕ
  pass : BindingPass
  literal : List Char

def BindingStep.bindPiece (piece : SqlPiece) (step : BindingStep) : SqlPiece :=
  piece.bind step.column step.pass.pattern step.literal

def BindingStep.bind (pieces : List SqlPiece) (step : BindingStep) : List SqlPiece :=
  pieces.map fun piece => step.bindPiece piece

def BindingStep.replace (sql : List Char) (step : BindingStep) : Option (List Char) := step.pass.replace step.literal sql

def boundPieces (steps : List BindingStep) (pieces : List SqlPiece) : List SqlPiece :=
  steps.foldl BindingStep.bind pieces

/-- The passes of the columns from `start` on. -/
def bindingSteps (outerAlias : Option String) (start : ℕ) : List String → List LiteralValue → List BindingStep
  | name :: names,literal :: literals =>
    (bindingPasses outerAlias name).map (fun pass => ⟨start,pass,(sqlLiteral literal).toList⟩) ++
      bindingSteps outerAlias (start + 1) names literals
  | _,_ => []

/-- Every pass finds its references, and nothing else, in the text that the passes before it should have left. -/
def BindsCleanly (steps : List BindingStep) (pieces : List SqlPiece) : Prop :=
  ∀ done step rest, steps = done ++ step :: rest → step.pass.FindsReferences step.column (boundPieces done pieces)

/-- Every reference is spelled as a pass for its column writes it. -/
def AreSpelled (steps : List BindingStep) (pieces : List SqlPiece) : Prop :=
  ∀ column spelling, .outer column spelling ∈ pieces → ∃ step ∈ steps, step.column = column ∧ step.pass.pattern = spelling

variable {floats : Floats} {outerAlias : Option String} {row : ℕ} {columns : List (String × ArrayRef)}
  {literals : List LiteralValue} {steps : List BindingStep} {pieces : List SqlPiece}

theorem bindsCleanly_nil (pieces : List SqlPiece) : BindsCleanly [] pieces := by
  intro done step rest h
  exact absurd h.symm (List.append_ne_nil_of_right_ne_nil done (List.cons_ne_nil step rest))

theorem bindsCleanly_cons {step : BindingStep} : BindsCleanly (step :: steps) pieces ↔
    step.pass.FindsReferences step.column pieces ∧ BindsCleanly steps (BindingStep.bind pieces step) := by
  constructor
  · intro h
    refine ⟨h [] step steps rfl,fun done later rest heq => ?_⟩
    exact h (step :: done) later rest (congrArg (step :: ·) heq)
  · rintro ⟨hfirst,hrest⟩ done later rest heq
    cases done with
    | nil =>
      cases heq
      exact hfirst
    | cons first done =>
      obtain ⟨rfl,htail⟩ := List.cons.inj heq
      exact hrest done later rest htail

theorem replace_steps (h : BindsCleanly steps pieces) :
    steps.foldlM BindingStep.replace (writtenSql pieces) =
      some (writtenSql (boundPieces steps pieces)) := by
  induction steps generalizing pieces with
  | nil => rfl
  | cons step steps ih =>
    obtain ⟨hfirst,hrest⟩ := bindsCleanly_cons.mp h
    have hreplace : BindingStep.replace (writtenSql pieces) step = some (writtenSql (BindingStep.bind pieces step)) :=
      replace_of_findsReferences hfirst
    rw [List.foldlM_cons,hreplace]
    exact ih hrest

theorem bindOuterColumns_eq (start : ℕ) (h : (columns.map Prod.snd).mapM (outerLiteral floats row) = .ok literals)
    (sql : List Char) :
    bindOuterColumns floats outerAlias row columns sql =
      ((bindingSteps outerAlias start (columns.map Prod.fst) literals).foldlM
        BindingStep.replace sql).map .ok := by
  induction columns generalizing start literals sql with
  | nil =>
    cases h
    rfl
  | cons column columns ih =>
    obtain ⟨name,array⟩ := column
    rw [List.map_cons,List.mapM_cons] at h
    obtain ⟨literal,hliteral,h⟩ := bind_eq_ok_iff.mp h
    obtain ⟨rest,hrest,h⟩ := bind_eq_ok_iff.mp h
    cases h
    unfold bindOuterColumns
    rw [hliteral]
    dsimp only
    have hcolumn : bindColumn outerAlias name (sqlLiteral literal).toList sql =
        ((bindingPasses outerAlias name).map fun pass => (⟨start,pass,(sqlLiteral literal).toList⟩ : BindingStep)).foldlM
          BindingStep.replace sql := by
      rw [List.foldlM_map]
      rfl
    have hsteps : bindingSteps outerAlias start (((name,array) :: columns).map Prod.fst) (literal :: rest) =
        ((bindingPasses outerAlias name).map fun pass => (⟨start,pass,(sqlLiteral literal).toList⟩ : BindingStep)) ++
          bindingSteps outerAlias (start + 1) (columns.map Prod.fst) rest := rfl
    rw [hsteps,List.foldlM_append,hcolumn]
    cases hbound : ((bindingPasses outerAlias name).map fun pass =>
        (⟨start,pass,(sqlLiteral literal).toList⟩ : BindingStep)).foldlM
          BindingStep.replace sql with
    | none => rfl
    | some bound => exact ih (start + 1) hrest bound

theorem literal_of_step {start : ℕ} {names : List String} {step : BindingStep}
    (h : step ∈ bindingSteps outerAlias start names literals) :
    ∃ i literal, step.column = start + i ∧ literals[i]? = some literal ∧ step.literal = (sqlLiteral literal).toList := by
  induction names generalizing start literals with
  | nil => cases h
  | cons name names ih =>
    cases literals with
    | nil => cases h
    | cons literal literals =>
      rcases List.mem_append.mp h with h | h
      · obtain ⟨pass,-,rfl⟩ := List.mem_map.mp h
        exact ⟨0,literal,rfl,rfl,rfl⟩
      · obtain ⟨i,literal',hcolumn,hliteral,heq⟩ := ih h
        exact ⟨i + 1,literal',by omega,hliteral,heq⟩

theorem boundPieces_eq (steps : List BindingStep) (pieces : List SqlPiece) :
    boundPieces steps pieces =
      pieces.map (steps.foldl BindingStep.bindPiece) := by
  induction steps generalizing pieces with
  | nil => exact (List.map_id pieces).symm
  | cons step steps ih =>
    have hfirst : boundPieces (step :: steps) pieces = boundPieces steps (BindingStep.bind pieces step) := rfl
    rw [hfirst,ih]
    unfold BindingStep.bind
    rw [List.map_map]
    rfl

theorem foldl_bind_text (steps : List BindingStep) (chars : List Char) :
    steps.foldl BindingStep.bindPiece (.text chars) = .text chars := by
  induction steps with
  | nil => rfl
  | cons step steps ih => exact ih

theorem foldl_bind_outer {column : ℕ} {spelling literal : List Char}
    (hliteral : ∀ step ∈ steps, step.column = column → step.literal = literal)
    (hspelled : ∃ step ∈ steps, step.column = column ∧ step.pass.pattern = spelling) :
    steps.foldl BindingStep.bindPiece (.outer column spelling) =
      .text literal := by
  induction steps with
  | nil =>
    obtain ⟨step,hstep,-⟩ := hspelled
    cases hstep
  | cons step steps ih =>
    rw [List.foldl_cons]
    by_cases hhere : column = step.column ∧ spelling = step.pass.pattern
    · have hbind : step.bindPiece (.outer column spelling) = .text step.literal :=
        if_pos hhere
      rw [hbind,foldl_bind_text,hliteral step (List.mem_cons_self ..) hhere.1.symm]
    · have hbind : step.bindPiece (.outer column spelling) = .outer column spelling := if_neg hhere
      rw [hbind]
      refine ih (fun later hlater => hliteral later (List.mem_cons_of_mem _ hlater)) ?_
      obtain ⟨later,hlater,hcolumn,hpattern⟩ := hspelled
      rcases List.mem_cons.mp hlater with rfl | hlater
      · exact absurd ⟨hcolumn.symm,hpattern.symm⟩ hhere
      · exact ⟨later,hlater,hcolumn,hpattern⟩

theorem writtenSql_boundPieces {names : List String} (h : AreSpelled (bindingSteps outerAlias 0 names literals) pieces) :
    writtenSql (boundPieces (bindingSteps outerAlias 0 names literals) pieces) = substitutedSql literals pieces := by
  rw [boundPieces_eq]
  unfold writtenSql substitutedSql
  rw [List.flatMap_map]
  refine List.flatMap_congr fun piece hpiece => ?_
  cases piece with
  | text chars => rw [foldl_bind_text]; rfl
  | outer column spelling =>
    have hspelled := h column spelling hpiece
    obtain ⟨step,hstep,hstepColumn,-⟩ := h column spelling hpiece
    obtain ⟨i,literal,hcolumn,hliteral,heq⟩ := literal_of_step hstep
    have hall : ∀ later ∈ bindingSteps outerAlias 0 names literals, later.column = column →
        later.literal = (sqlLiteral literal).toList := by
      intro later hlater hsame
      obtain ⟨j,literal',hcolumn',hliteral',heq'⟩ := literal_of_step hlater
      obtain rfl : j = i := by omega
      rw [heq',Option.some_inj.mp (hliteral'.symm.trans hliteral)]
    rw [foldl_bind_outer hall hspelled]
    have hindex : column = i := by omega
    have hvalue : SqlPiece.value literals (.outer column spelling) = (sqlLiteral literal).toList := by
      unfold SqlPiece.value
      dsimp only
      rw [hindex,hliteral]
      rfl
    exact hvalue.symm

/-- The text that is bound is the one with the literals in the place of the references; a parser that reads a literal
where it has read a reference reads from it the subquery with the literals in it. -/
theorem bindOuterRowReferences_substitutes {Q : Type*} (parse : List Char → Option Q) (substitute : List LiteralValue → Q → Q)
    {batch : NamedBatch} (hliterals : (batch.columns.map Prod.snd).mapM (outerLiteral floats row) = .ok literals)
    (hspelled : AreSpelled (bindingSteps outerAlias 0 (batch.columns.map Prod.fst) literals) pieces)
    (hclean : BindsCleanly (bindingSteps outerAlias 0 (batch.columns.map Prod.fst) literals) pieces)
    (hreads : parse (substitutedSql literals pieces) = (parse (writtenSql pieces)).map (substitute literals)) :
    ∃ bound, bindOuterRowReferences floats outerAlias row (String.ofList (writtenSql pieces)) batch = some (.ok bound) ∧
      bound.toList = substitutedSql literals pieces ∧
      parse bound.toList = (parse (writtenSql pieces)).map (substitute literals) := by
  have hbound : bindOuterColumns floats outerAlias row batch.columns (writtenSql pieces) =
      some (.ok (substitutedSql literals pieces)) := by
    rw [bindOuterColumns_eq 0 hliterals,replace_steps hclean,writtenSql_boundPieces hspelled]
    rfl
  refine ⟨String.ofList (substitutedSql literals pieces),?_,String.toList_ofList,?_⟩
  · unfold bindOuterRowReferences
    rw [String.toList_ofList,hbound]
    rfl
  · rw [String.toList_ofList]
    exact hreads

end Run

section Samples

def alikeColumns : List (String × ArrayRef) := [("a",.int64 [some 1]),("ab",.int64 [some 2])]

/-- A row with a column that another one begins with. -/
def alikeRow : NamedBatch where
  numRows := 1
  columns := alikeColumns
  structFieldArray _ _ := .error .panicked
  listLengths _ _ := .error .panicked
  length_eq := by decide
  structField_length := nofun
  listLengths_length := nofun

/-- `x = l.ab` and `x = l.a`. -/
def longReference : List SqlPiece := [.text "x = ".toList,.outer 1 "l.ab".toList]

def shortReference : List SqlPiece := [.text "x = ".toList,.outer 0 "l.a".toList]

def quotedReference : List SqlPiece := [.text "x = 'l.a'".toList]

/-- A parser of equalities of `x`. -/
def readEquality (text : List Char) : Option SqlExpr :=
  if text = "x = l.a".toList then some (.binaryOp (.identifier "x") .eq (.compoundIdentifier ["l","a"]))
  else if text = "x = 1".toList then some (.binaryOp (.identifier "x") .eq (.value (.number "1" false)))
  else none

/-- The references to `l.a` become the literal of the first column. -/
def bindFirst (literals : List LiteralValue) : SqlExpr → SqlExpr
  | .binaryOp left op right => .binaryOp (bindFirst literals left) op (bindFirst literals right)
  | .compoundIdentifier parts =>
    if parts = ["l","a"] then
      match literals with
      | literal :: _ => .value (.number (sqlLiteral literal) false)
      | [] => .compoundIdentifier parts
    else .compoundIdentifier parts
  | expr => expr

/-- The name of a column is replaced at the beginning of a longer one and inside of quotes. -/
theorem bindOuterRowReferences_rewrites :
    (∃ bound, bindOuterRowReferences textHost.floats (some "l") 0 (String.ofList (writtenSql longReference)) alikeRow =
        some (.ok bound) ∧ bound.toList ≠ substitutedSql [.int64 1,.int64 2] longReference) ∧
      ∃ bound, bindOuterRowReferences textHost.floats (some "l") 0 (String.ofList (writtenSql quotedReference)) alikeRow =
        some (.ok bound) ∧ bound.toList ≠ substitutedSql [.int64 1,.int64 2] quotedReference := by
  constructor
  · exact ⟨"x = 1b",by decide,by decide⟩
  · exact ⟨"x = '1'",by decide,by decide⟩

/-- The shorter name alone is bound. -/
theorem bindOuterRowReferences_binds :
    ∃ bound, bindOuterRowReferences textHost.floats (some "l") 0 (String.ofList (writtenSql shortReference)) alikeRow =
        some (.ok bound) ∧ bound.toList = substitutedSql [.int64 1,.int64 2] shortReference ∧
      readEquality bound.toList = (readEquality (writtenSql shortReference)).map (bindFirst [.int64 1,.int64 2]) := by
  apply bindOuterRowReferences_substitutes readEquality bindFirst rfl
  · intro column spelling h
    rcases List.mem_cons.mp h with h | h
    · cases h
    · cases List.mem_singleton.mp h
      exact ⟨_,List.mem_cons_self ..,rfl,rfl⟩
  · refine bindsCleanly_cons.mpr ⟨rfl,bindsCleanly_cons.mpr ⟨rfl,bindsCleanly_cons.mpr ⟨rfl,bindsCleanly_cons.mpr ⟨rfl,?_⟩⟩⟩⟩
    exact bindsCleanly_nil _
  · rfl

end Samples
end Dodam.Sql
