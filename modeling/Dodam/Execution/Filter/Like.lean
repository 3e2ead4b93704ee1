import Dodam.Execution.Error
import Dodam.Foundation.Fold
import Dodam.Foundation.SyncCode
import Dodam.Foundation.Wildcard

/-! # LIKE

`evaluate_like`: a pattern without an escape and without `_` is searched for as text segments,
on bytes; every other pattern runs as a table of reachable positions over its tokens.
-/
namespace Dodam.Execution
open Foundation

/-- The Unicode tables behind `str::to_lowercase`. The wildcards have no case. -/
structure CaseTables where
  lower : Char → List Char
  cased : Char → Bool
  caseIgnorable : Char → Bool
  lower_ne : ∀ c, lower c ≠ []
  lower_percent : lower '%' = ['%']
  lower_underscore : lower '_' = ['_']
  eq_percent : ∀ c, '%' ∈ lower c → c = '%'
  eq_underscore : ∀ c, '_' ∈ lower c → c = '_'

namespace CaseTables
variable (tables : CaseTables)

def caseIgnorableThenCased (text : List Char) : Bool :=
  ((text.dropWhile tables.caseIgnorable).head?.map tables.cased).getD false

/-- `map_uppercase_sigma`: a capital sigma at the end of a word has a form of its own. -/
def mapUppercaseSigma (before after : List Char) : Char :=
  if tables.caseIgnorableThenCased before.reverse && !tables.caseIgnorableThenCased after then 'ς' else 'σ'

def toLowercaseFrom (before : List Char) : List Char → List Char
  | [] => []
  | c :: after =>
    (if c = 'Σ' then [tables.mapUppercaseSigma before after] else tables.lower c) ++
      toLowercaseFrom (before ++ [c]) after

/-- `str::to_lowercase`. -/
def toLowercase (text : List Char) : List Char := tables.toLowercaseFrom [] text

def fold (text : List Char) : List Char := text.flatMap tables.lower

end CaseTables

inductive FastLikePattern
  | all
  | exact (segment : List Char)
  | prefixed (segment : List Char)
  | suffixed (segment : List Char)
  | contains (segment : List Char)
  | ordered (startsWithAny endsWithAny : Bool) (segments : List (List Char))

/-- The loop over the segments at their indices, with the byte offset behind the last one found. -/
def orderedLoop (finder : Searcher UInt8) (startsWithAny endsWithAny : Bool) (count : ℕ)
    (value : List UInt8) : ℕ → ℕ → List (List Char) → Bool
  | _,_,[] => true
  | index,offset,segment :: segments =>
    if index = 0 ∧ startsWithAny = false then
      orderedLoop finder startsWithAny endsWithAny count value (index + 1) (utf8.encode segment).length segments
    else if index + 1 = count ∧ endsWithAny = false then
      if value.length - (utf8.encode segment).length < offset then false
      else orderedLoop finder startsWithAny endsWithAny count value (index + 1) offset segments
    else
      match finder.find (utf8.encode segment) (value.drop offset) with
      | none => false
      | some relative =>
        orderedLoop finder startsWithAny endsWithAny count value (index + 1)
          (offset + (relative + (utf8.encode segment).length)) segments

/-- `FastLikePattern::matches`. -/
def FastLikePattern.matches (finder : Searcher UInt8) (pattern : FastLikePattern) (value : List Char) :
    Bool :=
  match pattern with
  | all => true
  | exact segment => value = segment
  | prefixed segment => segment.isPrefixOf value
  | suffixed segment => segment.isSuffixOf value
  | contains segment => (finder.find (utf8.encode segment) (utf8.encode value)).isSome
  | ordered startsWithAny endsWithAny segments =>
    if !startsWithAny && !(segments.headD []).isPrefixOf value then false
    else if !endsWithAny && !(segments.getLastD []).isSuffixOf value then false
    else orderedLoop finder startsWithAny endsWithAny segments.length (utf8.encode value) 0 0 segments

def fastLikePattern (pattern : List Char) (escape : Option Char) : Option FastLikePattern :=
  if escape.isSome ∨ '_' ∈ pattern then none
  else
    let startsWithAny : Bool := pattern.head? = some '%'
    let endsWithAny : Bool := pattern.getLast? = some '%'
    match (splitAll '%' pattern).filter fun segment => !segment.isEmpty with
    | [] => some .all
    | [segment] => some <|
      if !startsWithAny && !endsWithAny then .exact segment
      else if !startsWithAny && endsWithAny then .prefixed segment
      else if startsWithAny && !endsWithAny then .suffixed segment
      else .contains segment
    | segments => some (.ordered startsWithAny endsWithAny segments)

abbrev LikeToken := WildToken Char

def danglingEscapeMessage (pattern : String) : String :=
  s!"LIKE pattern ends with escape character: {pattern}"

/-- One token for each character or escaped character; gaps in a row are one. -/
def likePatternTokensFrom (pattern : String) (escape : Option Char) (tokens : List LikeToken) :
    List Char → Result (List LikeToken)
  | [] => .ok tokens
  | ch :: chars =>
    if some ch = escape then
      match chars with
      | [] => invalidFilter (danglingEscapeMessage pattern)
      | escaped :: chars => likePatternTokensFrom pattern escape (tokens ++ [.literal escaped]) chars
    else if ch = '%' then
      likePatternTokensFrom pattern escape
        (if tokens.getLast? = some .anyMany then tokens else tokens ++ [.anyMany]) chars
    else if ch = '_' then likePatternTokensFrom pattern escape (tokens ++ [.anyOne]) chars
    else likePatternTokensFrom pattern escape (tokens ++ [.literal ch]) chars

def likePatternTokens (pattern : List Char) (escape : Option Char) : Result (List LikeToken) :=
  likePatternTokensFrom (String.ofList pattern) escape [] pattern

/-- The positions that one more token can reach. -/
def likeStep (value : List Char) (matched : List Bool) : LikeToken → List Bool
  | .anyMany => (matched.scanl (· || ·) false).tail
  | .anyOne => false :: matched.take value.length
  | .literal expected => false :: List.zipWith (fun m c => m && c == expected) matched value

def likeMatches (value : List Char) (pattern : List LikeToken) : Bool :=
  let matched := pattern.foldl (likeStep value) (true :: List.replicate value.length false)
  matched.getD value.length false

/-- The columns LIKE reads: strings, or a dictionary of them. -/
inductive LikeColumn
  | utf8 (values : List (Option String))
  | dictionary (keys : List (Option Int32)) (dictionary : List (Option String))
  | unsupported (dataType : String)

/-- The value of each row. A key that is negative or has no entry reads as NULL. -/
def LikeColumn.values : LikeColumn → Option (List (Option String))
  | utf8 values => some values
  | dictionary keys entries => some <| keys.map fun key => key.bind fun key =>
      if key.toInt < 0 then none else entries[key.toInt.toNat]?.join
  | unsupported _ => none

def LikeColumn.dataType : LikeColumn → String
  | utf8 _ => "Utf8"
  | dictionary _ _ => "Dictionary(Int32, Utf8)"
  | unsupported dataType => dataType

structure LikeExpr where
  column : String
  pattern : String
  negated : Bool
  escape : Option Char
  caseInsensitive : Bool

def evaluateLikeValues (finder : Searcher UInt8) (tables : CaseTables) (values : List (Option String))
    (pattern : List Char) (fastPattern : Option FastLikePattern) (negated : Bool) (escape : Option Char)
    (caseInsensitive : Bool) : Result (List (Option Bool)) :=
  let normalized (value : String) : List Char :=
    if caseInsensitive then tables.toLowercase value.toList else value.toList
  let verdicts (matched : List Char → Bool) : List (Option Bool) :=
    values.map fun value => value.map fun value =>
      if negated then !matched (normalized value) else matched (normalized value)
  match fastPattern with
  | some fastPattern => .ok (verdicts (fastPattern.matches finder))
  | none => do
    let tokens ← likePatternTokens pattern escape
    return verdicts fun value => likeMatches value tokens

/-- `evaluate_like`, on the column its name resolves to. -/
def evaluateLike (finder : Searcher UInt8) (tables : CaseTables) (column : LikeColumn) (like : LikeExpr) :
    Result (List (Option Bool)) :=
  let pattern :=
    if like.caseInsensitive then tables.toLowercase like.pattern.toList else like.pattern.toList
  let fastPattern := fastLikePattern pattern like.escape
  match column.values with
  | some values => evaluateLikeValues finder tables values pattern fastPattern like.negated like.escape
      like.caseInsensitive
  | none => .error (.err (.unsupportedFilterType like.column column.dataType))

end Dodam.Execution
