import Dodam.Execution.Filter.LikeCorrect
import Dodam.Sql.FilterParser
import Dodam.Sql.ScalarEval

/-! # Evaluation of predicates

The general evaluator of a predicate on a batch, and the vector path that it asks
first: comparisons of a column with a literal, IN lists over integers, and LIKE
patterns that are a plain text between wildcards.
-/
namespace Dodam.Sql
open Foundation Execution

section Parsers

/-- How the operands of a predicate are read, and what an error calls the predicate. -/
structure PredicateParser where
  parse : SqlExpr → Result ScalarSqlExpression
  unsupportedContext : String

def singlePredicateParser (host : Host) (tableAlias : Option String) : PredicateParser :=
  ⟨parseScalarSqlExpression host tableAlias,"expression"⟩

def joinPredicateParser (host : Host) (tableAliases : List String) : PredicateParser :=
  ⟨parseJoinScalarSqlExpression host tableAliases,"JOIN expression"⟩

def reverseBinaryOperator : ComparisonOp → ComparisonOp
  | .gt => .lt
  | .gtEq => .ltEq
  | .lt => .gt
  | .ltEq => .gtEq
  | op => op

end Parsers

section Vector
variable (host : ScalarHost) (batch : NamedBatch)

def scalarI64Literal : ScalarSqlExpression → Option ℤ
  | .literal (.int64 value) => some value.toInt
  | _ => none

def vectorListLengthLiteralCompare (left : ScalarSqlExpression) (op : ComparisonOp)
    (right : ScalarSqlExpression) : Result (Option Mask) :=
  match left,scalarI64Literal right with
  | .listLength column field,some literal => (batch.listLengths column field).map fun lengths =>
    some (lengths.map fun length => compareOptionalValues op (length.map Int32.toInt) (some literal))
  | _,_ => .ok none

/-- Every value against the literal. Where no value is NULL, a comparison without a result is false. -/
def vectorCompare {α : Type} (compare : Option α → Option α → Option Bool) (values : List (Option α))
    (literal : Option α) : Mask :=
  if values.all Option.isSome then values.map fun value => some ((compare value literal).getD false)
  else values.map fun value => if value.isNone then none else compare value literal

def vectorArrayLiteralCompare (op : ComparisonOp) (literal : LiteralValue) : ArrayRef → Result (Option Mask)
  | .int32 values => (literalAsI64ForType host literal).map fun literal =>
    some (vectorCompare (compareOptionalValues op) (values.map (Option.map Int32.toInt)) literal)
  | .int64 values => (literalAsI64ForType host literal).map fun literal =>
    some (vectorCompare (compareOptionalValues op) (values.map (Option.map Int64.toInt)) literal)
  | .float64 values => (literalAsF64ForType host literal).map fun literal =>
    some (vectorCompare (compareOptionalF64 host.floats op) values literal)
  | .boolean values => (literalAsBoolForType literal).map fun literal =>
    some (vectorCompare (compareOptionalValues op) values literal)
  | .date32 values => (literalAsDate32ForType literal).map fun literal =>
    some (vectorCompare (compareOptionalValues op) (values.map (Option.map Int32.toInt)) literal)
  | .decimal128 precision scale values => (literalAsDecimal128ForType precision scale literal).map fun literal =>
    some (vectorCompare (compareOptionalValues op) values literal)
  | .utf8 values =>
    .ok (some (values.map fun value => compareOptionalValues op value (literalAsUtf8ForType literal)))
  | _ => .ok none

def vectorColumnLiteralCompare (left : ScalarSqlExpression) (op : ComparisonOp) (right : ScalarSqlExpression) :
    Result (Option Mask) :=
  match left,right with
  | .column column,.literal literal =>
    if literal = .null then .ok (some (List.replicate batch.numRows none))
    else do
      let array ← batch.outputColumn column
      vectorArrayLiteralCompare host op literal array
  | _,_ => .ok none

def vectorI64Array : ArrayRef → Option (List (Option ℤ))
  | .int32 values => some (values.map (Option.map Int32.toInt))
  | .int64 values => some (values.map (Option.map Int64.toInt))
  | _ => none

def vectorI64Expression : ScalarSqlExpression → Result (Option (List (Option ℤ)))
  | .column column => (batch.columnIgnoringCase column).map vectorI64Array
  | .structField column field => (batch.structFieldArray column field).map vectorI64Array
  | _ => .ok none

/-- The integers of a list and whether it has a NULL, unless it has another member. -/
def i64ListLiterals : List ScalarSqlExpression → Option (List ℤ × Bool)
  | [] => some ([],false)
  | value :: values =>
    match value,i64ListLiterals values with
    | .literal (.int64 value),some (literals,hasNull) => some (value.toInt :: literals,hasNull)
    | .literal .null,some (literals,_) => some (literals,true)
    | _,_ => none

def inListResult (negated matched hasNull : Bool) : Option Bool :=
  if matched then some !negated else if hasNull then none else some negated

def vectorI64ExpressionInList (expr : ScalarSqlExpression) (values : List ScalarSqlExpression) (negated : Bool) :
    Result (Option Mask) := do
  match ← vectorI64Expression batch expr with
  | none => return none
  | some probe =>
    match i64ListLiterals values with
    | none => return none
    | some (literals,hasNull) =>
      return some (probe.map fun value => value.bind fun value => inListResult negated (value ∈ literals) hasNull)

inductive SimpleLikeLiteral
  | exact (pattern : List Char)
  | prefixed (pattern : List Char)
  | suffixed (pattern : List Char)
  | contains (pattern : List Char)

def simpleLikeLiteral (pattern : List Char) (escape : Option Char) : Option SimpleLikeLiteral :=
  if escape.isSome ∨ '_' ∈ pattern then none
  else
    match pattern.count '%' with
    | 0 => some (.exact pattern)
    | 1 =>
      if pattern.getLast? = some '%' then some (.prefixed pattern.dropLast)
      else if pattern.head? = some '%' then some (.suffixed pattern.tail)
      else none
    | 2 => if pattern.head? = some '%' ∧ pattern.getLast? = some '%' then some (.contains pattern.tail.dropLast) else none
    | _ => none

def foldCase (caseInsensitive : Bool) (text : List Char) : List Char :=
  if caseInsensitive then host.tables.toLowercase text else text

def simpleLikeMatches (caseInsensitive : Bool) (value : List Char) (pattern : SimpleLikeLiteral) : Bool :=
  let value := foldCase host caseInsensitive value
  match pattern with
  | .exact pattern => value = foldCase host caseInsensitive pattern
  | .prefixed pattern => (foldCase host caseInsensitive pattern).isPrefixOf value
  | .suffixed pattern => (foldCase host caseInsensitive pattern).isSuffixOf value
  | .contains pattern => foldCase host caseInsensitive pattern <:+: value

def vectorStringLikeLiteral (expr : ScalarSqlExpression) (pattern : SqlExpr) (escape : Option Char)
    (negated caseInsensitive : Bool) : Result (Option Mask) :=
  match expr with
  | .column column => do
    let pattern ← sqlLikePattern host.toHost pattern
    match simpleLikeLiteral pattern.toList escape with
    | none => return none
    | some pattern =>
      match ← batch.columnIgnoringCase column with
      | .utf8 values =>
        return some (values.map (Option.map fun value =>
          simpleLikeMatches host caseInsensitive value.toList pattern != negated))
      | _ => return none
  | _ => .ok none

end Vector

section General
variable (host : ScalarHost) (batch : NamedBatch) (parser : PredicateParser)

/-- The first of two vector comparisons that applies. -/
def orElseMask (first second : Result (Option Mask)) : Result (Option Mask) := do
  match ← first with
  | some mask => return some mask
  | none => second

def vectorComparison (op : ComparisonOp) (left right : SqlExpr) : Result (Option Mask) := do
  let left ← parser.parse left
  let right ← parser.parse right
  orElseMask (vectorListLengthLiteralCompare batch left op right) <|
    orElseMask (vectorListLengthLiteralCompare batch right (reverseBinaryOperator op) left) <|
      orElseMask (vectorColumnLiteralCompare host batch left op right)
        (vectorColumnLiteralCompare host batch right (reverseBinaryOperator op) left)

def generalComparison (op : ComparisonOp) (left right : SqlExpr) : Result Mask := do
  let left ← parser.parse left
  let left ← evaluateScalarExpression host batch left
  let right ← parser.parse right
  let right ← evaluateScalarExpression host batch right
  compareEvaluatedScalars host op left right

def nullPredicate (negated : Bool) (expr : SqlExpr) : Result Mask := do
  let expr ← parser.parse expr
  let value ← evaluateScalarExpression host batch expr
  match value with
  | .array array => return (List.range array.length).map fun row => some (array.isNull row != negated)
  | .values values => return (scalarNullMask values).map fun isNull => some (isNull != negated)
where
  scalarNullMask : ScalarValues → List Bool
    | .int64 values | .date32 values | .timestampMillisecond values | .decimal128 values _ _ =>
      values.map Option.isNone
    | .float64 values | .utf8 values => values.map Option.isNone
    | .boolean values => values.map Option.isNone

/-- A value at one row, with the type that it compares at. -/
inductive ScalarValue
  | int64 (value : ℤ)
  | float64 (value : String)
  | decimal128 (value : ℤ) (precision : UInt8) (scale : Int8)
  | utf8 (value : String)
  | boolean (value : Bool)
  | date32 (value : ℤ)
  | timestampMillisecond (value : ℤ)
deriving DecidableEq

def scalarValueAt (values : ScalarValues) (row : ℕ) : Option ScalarValue :=
  match values with
  | .int64 values => (values[row]?.join).map .int64
  | .float64 values => (values[row]?.join).map .float64
  | .decimal128 values precision scale => (values[row]?.join).map fun value => .decimal128 value precision scale
  | .utf8 values => (values[row]?.join).map .utf8
  | .boolean values => (values[row]?.join).map .boolean
  | .date32 values => (values[row]?.join).map .date32
  | .timestampMillisecond values => (values[row]?.join).map .timestampMillisecond

/-- `PartialEq`: numbers are equal as numbers, which excludes NaN. -/
def ScalarValue.equals (floats : Floats) : ScalarValue → ScalarValue → Bool
  | .float64 left,.float64 right => floats.partialCmp left right = some .eq
  | left,right => left = right

def ScalarValues.length : ScalarValues → ℕ
  | int64 values | date32 values | timestampMillisecond values | decimal128 values _ _ => values.length
  | float64 values | utf8 values => values.length
  | boolean values => values.length

inductive EvaluatedScalarKind
  | int64
  | float64
  | decimal128 (precision : UInt8) (scale : Int8)
  | utf8
  | boolean
  | date32
  | timestampMillisecond

def ScalarValues.kind : ScalarValues → EvaluatedScalarKind
  | int64 _ => .int64
  | float64 _ => .float64
  | decimal128 _ precision scale => .decimal128 precision scale
  | utf8 _ => .utf8
  | boolean _ => .boolean
  | date32 _ => .date32
  | timestampMillisecond _ => .timestampMillisecond

namespace EvaluatedScalar

def length : EvaluatedScalar → ℕ
  | array column => column.length
  | values read => read.length

def dataType : EvaluatedScalar → String
  | array column => column.dataType
  | values read => read.dataType

/-- An array that is not read has the kind of a text. -/
def kind (value : EvaluatedScalar) : EvaluatedScalarKind := (value.materialize.toOption.map ScalarValues.kind).getD .utf8

/-- `scalar_value_at`. -/
def valueAt (row : ℕ) : EvaluatedScalar → Result (Option ScalarValue)
  | array column =>
    if column.isNull row then .ok none else (evaluatedArray column).map fun read => scalarValueAt read row
  | values read => .ok (scalarValueAt read row)

end EvaluatedScalar

def cannotUseInList {α : Type} (value : EvaluatedScalar) (kind : String) : Result α :=
  unsupportedSql s!"cannot use {value.dataType} in {kind} IN list"

/-- A member of a list at the kind of the tested value; an array is converted for some kinds only. -/
def castScalarForKind (kind : EvaluatedScalarKind) (value : EvaluatedScalar) : Result ScalarValues :=
  match kind,value with
  | .int64,value => do
    let read ← value.materialize
    (scalarAsI64 read).map .int64
  | .float64,value => do
    let read ← value.materialize
    (scalarAsF64 host read).map .float64
  | .utf8,value => value.materialize.map fun read => .utf8 (scalarAsUtf8 read)
  | .decimal128 precision scale,.values (.decimal128 values valuePrecision valueScale) =>
    if valuePrecision = precision ∧ valueScale = scale then .ok (.decimal128 values precision scale)
    else cannotUseInList value "decimal"
  | .decimal128 _ _,value => cannotUseInList value "decimal"
  | .date32,.values (.date32 values) => .ok (.date32 values)
  | .date32,value => cannotUseInList value "date"
  | .timestampMillisecond,.values (.timestampMillisecond values) => .ok (.timestampMillisecond values)
  | .timestampMillisecond,value => cannotUseInList value "timestamp"
  | .boolean,.values (.boolean values) => .ok (.boolean values)
  | .boolean,value => cannotUseInList value "boolean"

/-- The search ends at the first member that is equal. -/
def inListRow (kind : EvaluatedScalarKind) (row : ℕ) (negated : Bool) (candidate : ScalarValue) (hasNull : Bool) :
    List EvaluatedScalar → Result (Option Bool)
  | [] => .ok (inListResult negated false hasNull)
  | value :: values => do
    let value ← castScalarForKind host kind value
    match scalarValueAt value row with
    | some member =>
      if member.equals host.floats candidate then return inListResult negated true hasNull
      else inListRow kind row negated candidate hasNull values
    | none => inListRow kind row negated candidate true values

def evaluateScalarInList (value : EvaluatedScalar) (values : List EvaluatedScalar) (negated : Bool) : Result Mask :=
  (List.range value.length).mapM fun row => do
    match ← value.valueAt row with
    | none => return none
    | some candidate => inListRow host value.kind row negated candidate false values

def scalarLikePatternTokens (escape : Option Char) : List Char → Result (List LikeToken)
  | [] => .ok []
  | ch :: chars =>
    if some ch = escape then
      match chars with
      | [] => invalidFilter "LIKE ESCAPE at end of pattern"
      | escaped :: chars => (scalarLikePatternTokens escape chars).map (.literal escaped :: ·)
    else
      (scalarLikePatternTokens escape chars).map
        ((if ch = '%' then .anyMany else if ch = '_' then .anyOne else .literal ch) :: ·)

def scalarLikeMatches : List LikeToken → List Char → Bool
  | [],value => value.isEmpty
  | .literal ch :: pattern,value => value.head? = some ch && scalarLikeMatches pattern value.tail
  | .anyOne :: pattern,value => !value.isEmpty && scalarLikeMatches pattern value.tail
  | .anyMany :: pattern,value => value.tails.any fun rest => scalarLikeMatches pattern rest

def generalLike (expr pattern : SqlExpr) (negated : Bool) (escapeChar : Option Value) (caseInsensitive : Bool) :
    Result Mask := do
  let expr ← parser.parse expr
  let values ← materialized (evaluateScalarExpression host batch expr)
  let pattern ← sqlLikePattern host.toHost pattern
  let escape ← sqlLikeEscape escapeChar
  let tokens ← scalarLikePatternTokens escape (foldCase host caseInsensitive pattern.toList)
  return (scalarAsUtf8 values).map (Option.map fun value =>
    scalarLikeMatches tokens (foldCase host caseInsensitive value.toList) != negated)

def generalInList (expr : SqlExpr) (list : List SqlExpr) (negated : Bool) : Result Mask := do
  let expr ← parser.parse expr
  let value ← evaluateScalarExpression host batch expr
  let values ← list.mapM fun expr => do
    let expr ← parser.parse expr
    evaluateScalarExpression host batch expr
  evaluateScalarInList host value values negated

/-- `try_evaluate_vector_scalar_predicate`. -/
def tryEvaluateVectorScalarPredicate : SqlExpr → Result (Option Mask)
  | .binaryOp left op right =>
    match op.comparison with
    | some op => vectorComparison host batch parser op left right
    | none => .ok none
  | .inList expr list negated => do
    let expr ← parser.parse expr
    let values ← list.mapM parser.parse
    vectorI64ExpressionInList batch expr values negated
  | .like expr pattern negated any escapeChar caseInsensitive =>
    if any then .ok none
    else do
      let expr ← parser.parse expr
      let escape ← sqlLikeEscape escapeChar
      vectorStringLikeLiteral host batch expr pattern escape negated caseInsensitive
  | _ => .ok none

variable (tryVector : SqlExpr → Result (Option Mask))

def orGeneral (predicate : SqlExpr) (general : Result Mask) : Result Mask := do
  match ← tryVector predicate with
  | some mask => return mask
  | none => general

def comparisonPredicate (left : SqlExpr) (op : BinaryOperator) (right : SqlExpr) : Result Mask :=
  orGeneral tryVector (.binaryOp left op right) <|
    match op.comparison with
    | some op => generalComparison host batch parser op left right
    | none => unsupportedSql
        s!"unsupported {parser.unsupportedContext} WHERE predicate: {host.display (.binaryOp left op right)}"

/-- The evaluator, with a vector path that it asks first. -/
def evaluatePredicateWith : SqlExpr → Result Mask
  | .binaryOp left op right =>
    match op with
    | .and => do
      let left ← evaluatePredicateWith left
      let right ← evaluatePredicateWith right
      return andMasks left right
    | .or => do
      let left ← evaluatePredicateWith left
      let right ← evaluatePredicateWith right
      return orMasks left right
    | op => comparisonPredicate host batch parser tryVector left op right
  | .unaryOp op expr =>
    if op = .not then (evaluatePredicateWith expr).map notMask
    else unsupportedSql s!"unsupported {parser.unsupportedContext} WHERE predicate: {host.display (.unaryOp op expr)}"
  | .nested expr => evaluatePredicateWith expr
  | .isNull expr => nullPredicate host batch parser false expr
  | .isNotNull expr => nullPredicate host batch parser true expr
  | .inList expr list negated =>
    orGeneral tryVector (.inList expr list negated) (generalInList host batch parser expr list negated)
  | .between expr negated low high => do
    let lower ← comparisonPredicate host batch parser tryVector expr (if negated then .lt else .gtEq) low
    let upper ← comparisonPredicate host batch parser tryVector expr (if negated then .gt else .ltEq) high
    return if negated then orMasks lower upper else andMasks lower upper
  | .like expr pattern negated any escapeChar caseInsensitive =>
    orGeneral tryVector (.like expr pattern negated any escapeChar caseInsensitive) <|
      if any then unsupportedSql "LIKE ANY is not supported"
      else generalLike host batch parser expr pattern negated escapeChar caseInsensitive
  | expr => unsupportedSql s!"unsupported {parser.unsupportedContext} WHERE predicate: {host.display expr}"

/-- `evaluate_scalar_predicate_with_parser`. -/
def evaluateScalarPredicateWithParser (predicate : SqlExpr) : Result Mask :=
  evaluatePredicateWith host batch parser (tryEvaluateVectorScalarPredicate host batch parser) predicate

def evaluateGeneralPredicate (predicate : SqlExpr) : Result Mask :=
  evaluatePredicateWith host batch parser (fun _ => .ok none) predicate

end General

section Entry
variable (host : ScalarHost) (batch : NamedBatch)

def evaluateScalarPredicate (predicate : SqlExpr) (tableAlias : Option String) : Result Mask :=
  evaluateScalarPredicateWithParser host batch (singlePredicateParser host.toHost tableAlias) predicate

def evaluateJoinScalarPredicate (predicate : SqlExpr) (tableAliases : List String) : Result Mask :=
  evaluateScalarPredicateWithParser host batch (joinPredicateParser host.toHost tableAliases) predicate

end Entry
end Dodam.Sql

/-! ## Facts about the evaluators of predicates

What a reference resolves to in a batch, how integers compare, and the values of
columns and literals on the rows of a batch.
-/
namespace Dodam.Sql
open Foundation Execution

theorem invalidCast_ne_ok {α : Type} (message : String) (a : α) : (invalidCast message : Result α) ≠ .ok a := by
  rintro ⟨⟩

section Columns
variable {batch : NamedBatch} {name : String} {array : ArrayRef}

/-- The first column that the name matches is the one of exactly that name. -/
def NamedBatch.FindsColumn (batch : NamedBatch) (name : String) (array : ArrayRef) : Prop :=
  batch.columns.find? (fun column => sameJoinColumn column.1 name) = some (name,array)

theorem findIdx?_of_find? {α : Type} {p : α → Bool} {l : List α} {a : α} (h : l.find? p = some a) :
    ∃ i, l.findIdx? p = some i ∧ l[i]? = some a := by
  induction l with
  | nil => cases h
  | cons b l ih =>
    rw [List.find?_cons] at h
    cases hb : p b with
    | true =>
      rw [hb] at h
      exact ⟨0,by rw [List.findIdx?_cons,hb]; rfl,h⟩
    | false =>
      rw [hb] at h
      obtain ⟨i,hi,ha⟩ := ih h
      exact ⟨i + 1,by rw [List.findIdx?_cons,hb,hi]; rfl,ha⟩

theorem NamedBatch.FindsColumn.mem (h : batch.FindsColumn name array) : (name,array) ∈ batch.columns :=
  List.mem_of_find?_eq_some h

theorem NamedBatch.FindsColumn.length_eq (h : batch.FindsColumn name array) : array.length = batch.numRows :=
  batch.length_eq _ h.mem

theorem NamedBatch.FindsColumn.outputColumn (h : batch.FindsColumn name array) : batch.outputColumn name = .ok array := by
  obtain ⟨i,hi,ha⟩ := findIdx?_of_find? h
  have hindex : batch.columnIndex name = .ok i := by
    have hnames : batch.names.findIdx? (fun field => sameJoinColumn field name) = some i := by
      rw [NamedBatch.names,List.findIdx?_map]
      exact hi
    rw [NamedBatch.columnIndex,hnames]
    rfl
  have hresolve : batch.resolveColumn name = .ok (some name) := by
    rw [NamedBatch.resolveColumn,hindex]
    rfl
  have houtput : batch.outputColumnIndex name = .ok i := by
    rw [NamedBatch.outputColumnIndex,hresolve]
    exact hindex
  have hcolumn : batch.column i = .ok array := by
    rw [NamedBatch.column,ha]
    rfl
  rw [NamedBatch.outputColumn,houtput]
  exact hcolumn

theorem parseScalarSqlExpression_identifier (host : Host) (name : String) (tableAlias : Option String) :
    parseScalarSqlExpression host tableAlias (.identifier name) = .ok (.column name) := by
  cases tableAlias <;> rfl

end Columns

section Compare

/-- The relation of two numbers that an operator tests. -/
def ComparesTo (op : ComparisonOp) (left right : ℤ) : Prop :=
  match op with
  | .eq => left = right
  | .notEq => left ≠ right
  | .lt => left < right
  | .ltEq => left ≤ right
  | .gt => right < left
  | .gtEq => right ≤ left

theorem orderingHolds_iff (op : ComparisonOp) (left right : ℤ) :
    orderingHolds op (compare left right) = true ↔ ComparesTo op left right := by
  have hlt : compare left right = .lt ↔ left < right := compare_lt_iff_lt
  have hgt : compare left right = .gt ↔ right < left := compare_gt_iff_gt
  have heq : compare left right = .eq ↔ left = right := compare_eq_iff_eq
  cases hcompare : compare left right with
  | lt =>
    have := hlt.mp hcompare
    cases op <;> simp [orderingHolds,ComparesTo] <;> omega
  | eq =>
    have := heq.mp hcompare
    cases op <;> simp [orderingHolds,ComparesTo] <;> omega
  | gt =>
    have := hgt.mp hcompare
    cases op <;> simp [orderingHolds,ComparesTo] <;> omega

theorem orderingHolds_eq_false_iff (op : ComparisonOp) (left right : ℤ) :
    orderingHolds op (compare left right) = false ↔ ¬ ComparesTo op left right := by
  rw [← orderingHolds_iff,Bool.not_eq_true]

end Compare

section Masks
variable {α : Type} {compare : Option α → Option α → Option Bool} {values : List (Option α)} {literal : Option α}

theorem vectorCompare_eq_replicate {b : Bool}
    (h : ∀ value ∈ values, value.isSome = true ∧ compare value literal = some b) :
    vectorCompare compare values literal = List.replicate values.length (some b) := by
  have hall : values.all Option.isSome = true := List.all_eq_true.mpr fun value hvalue => (h value hvalue).1
  rw [vectorCompare,if_pos hall]
  refine List.eq_replicate_iff.mpr ⟨List.length_map _,fun result hresult => ?_⟩
  obtain ⟨value,hvalue,he⟩ := List.mem_map.mp hresult
  rw [← he,(h value hvalue).2]
  rfl

theorem zipWith_replicate_right {β γ : Type} (f : α → β → γ) (l : List α) (b : β) :
    List.zipWith f l (List.replicate l.length b) = l.map fun a => f a b := by
  induction l with
  | nil => rfl
  | cons a l ih => rw [List.length_cons,List.replicate_succ,List.zipWith_cons_cons,ih,List.map_cons]

end Masks

section Comparisons
variable {host : ScalarHost} {batch : NamedBatch} {parser : PredicateParser} {tryVector : SqlExpr → Result (Option Mask)}
  {left right : SqlExpr} {op : BinaryOperator} {comparison : ComparisonOp}

theorem evaluatePredicateWith_comparison (h : op.comparison = some comparison) :
    evaluatePredicateWith host batch parser tryVector (.binaryOp left op right) =
      orGeneral tryVector (.binaryOp left op right) (generalComparison host batch parser comparison left right) := by
  have hpredicate : evaluatePredicateWith host batch parser tryVector (.binaryOp left op right) =
      comparisonPredicate host batch parser tryVector left op right := by
    cases op with
    | and | or => cases h
    | _ => rfl
  rw [hpredicate,comparisonPredicate,h]

theorem tryEvaluateVectorScalarPredicate_comparison (h : op.comparison = some comparison) :
    tryEvaluateVectorScalarPredicate host batch parser (.binaryOp left op right) =
      vectorComparison host batch parser comparison left right := by
  rw [tryEvaluateVectorScalarPredicate,h]

variable {name : String} {literal : LiteralValue} {array : ArrayRef} {mask : Mask}

theorem evaluateScalarPredicate_of_vector (h : op.comparison = some comparison)
    (hleft : parser.parse left = .ok (.column name)) (hright : parser.parse right = .ok (.literal literal))
    (hliteral : literal ≠ .null) (harray : batch.outputColumn name = .ok array)
    (hmask : vectorArrayLiteralCompare host comparison literal array = .ok (some mask)) :
    evaluateScalarPredicateWithParser host batch parser (.binaryOp left op right) = .ok mask := by
  have hcompare : vectorColumnLiteralCompare host batch (.column name) comparison (.literal literal) =
      .ok (some mask) := by
    rw [vectorColumnLiteralCompare,if_neg hliteral,harray]
    exact hmask
  have hvector : vectorComparison host batch parser comparison left right = .ok (some mask) := by
    rw [vectorComparison,hleft,hright]
    simp only [except_bind_ok]
    rw [hcompare]
    rfl
  rw [evaluateScalarPredicateWithParser,evaluatePredicateWith_comparison h,orGeneral,
    tryEvaluateVectorScalarPredicate_comparison h,hvector]
  rfl

end Comparisons
section Examples

/-- A host without floating-point numbers, whose letters are those of ASCII. -/
def asciiHost : ScalarHost where
  floats := ⟨fun _ => none,fun _ => "",fun _ _ => "",fun _ _ => "",fun _ _ => "",fun text => text,fun _ _ => none⟩
  display _ := ""
  readsOther _ := .ok ()
  tables := asciiTables
  toUppercase text := text
  toInt64 _ := 0
  mul text _ := text
  div text _ := text
  abs text := text
  round text := text
  floor text := text
  ceil text := text
  decimalExpressionFast := true
  evaluateOther _ _ := unsupportedSql "other"

/-- One row with nine in `a`. -/
def nineBatch : NamedBatch where
  numRows := 1
  columns := [("a",.int64 [some 9])]
  structFieldArray _ _ := unknownColumn "field"
  listLengths _ _ := unknownColumn "list"
  length_eq := by decide
  structField_length _ _ _ h := nomatch h
  listLengths_length _ _ _ h := nomatch h

end Examples
end Dodam.Sql
