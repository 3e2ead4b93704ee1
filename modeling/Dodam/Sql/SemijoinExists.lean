import Dodam.Sql.PredicateSplit
import Dodam.Sql.SemijoinMaskCorrect

/-! # EXISTS

An EXISTS that stands alone asks whether the subquery's result has a batch, one
inside of a predicate whether it has a row, and one that is correlated by an
equality of columns whether the outer value is among the keys of the subquery.
-/
namespace Dodam.Sql
open Foundation Execution

section Direct

def topLevelExistsSubquery : SqlExpr → Option (Query × Bool)
  | .existsSubquery subquery negated => some (subquery,negated)
  | .unaryOp .not expr => (topLevelExistsSubquery expr).map fun (subquery,negated) => (subquery,!negated)
  | .nested expr => topLevelExistsSubquery expr
  | _ => none

/-- Whether `try_execute_exists_subquery_sql` scans the outer table, or returns no batch. -/
def existsKeepsRows (executeSql : Query → Result QueryOutput) (subquery : Query) (negated : Bool) : Result Bool :=
  (subqueryBatches executeSql subquery).map fun batches => !batches.isEmpty != negated

end Direct

section KeyPair
variable (host : Host)

inductive SemijoinColumnOwner
  | inner
  | outer
deriving DecidableEq

def semijoinColumnName : SqlExpr → Result (Option String)
  | .identifier value => .ok (some value)
  | .compoundIdentifier [qualifier,column] => .ok (some (qualifier ++ "." ++ column))
  | .compoundIdentifier parts =>
    unsupportedSql s!"only table-qualified columns are supported, got {host.display (.compoundIdentifier parts)}"
  | .nested expr => semijoinColumnName expr
  | _ => .ok none

def unqualifiedSemijoinColumn (column : String) : String := String.ofList (lastSegment column.toList)

/-- A table without a name has no such prefix. -/
def semijoinUnqualifiedPrefix (tableAlias : String) : Option (List Char) :=
  tableAlias.toList.head?.map fun initial => [initial,'_']

def semijoinColumnOwner (column innerAlias outerAlias : String) : Option SemijoinColumnOwner :=
  if (innerAlias.toList ++ ['.']).isPrefixOf column.toList then some .inner
  else if (outerAlias.toList ++ ['.']).isPrefixOf column.toList then some .outer
  else do
    let unqualified := (unqualifiedSemijoinColumn column).toList
    let innerStart ← semijoinUnqualifiedPrefix innerAlias
    if innerStart.isPrefixOf unqualified then return .inner
    let outerStart ← semijoinUnqualifiedPrefix outerAlias
    if outerStart.isPrefixOf unqualified then return .outer
    none

/-- The inner and the outer column of an equality between the two tables. -/
def conjunctKeyPair (conjunct : SqlExpr) (innerAlias outerAlias : String) : Result (Option (String × String)) :=
  match conjunct with
  | .binaryOp left .eq right => do
    let some leftColumn ← semijoinColumnName host left | return none
    let some rightColumn ← semijoinColumnName host right | return none
    match semijoinColumnOwner leftColumn innerAlias outerAlias,semijoinColumnOwner rightColumn innerAlias outerAlias with
    | some .inner,some .outer => return some (unqualifiedSemijoinColumn leftColumn,unqualifiedSemijoinColumn rightColumn)
    | some .outer,some .inner => return some (unqualifiedSemijoinColumn rightColumn,unqualifiedSemijoinColumn leftColumn)
    | _,_ => return none
  | _ => .ok none

/-- The first conjunct with a pair of keys, by its position from `index` on. -/
def semijoinExistsKeyPairFrom (innerAlias outerAlias : String) : List SqlExpr → ℕ → Result (Option (ℕ × String × String))
  | [],_ => .ok none
  | conjunct :: conjuncts,index => do
    match ← conjunctKeyPair host conjunct innerAlias outerAlias with
    | some (inner,outer) => return some (index,inner,outer)
    | none => semijoinExistsKeyPairFrom innerAlias outerAlias conjuncts (index + 1)

def semijoinExistsKeyPair (conjuncts : List SqlExpr) (innerAlias outerAlias : String) :
    Result (Option (ℕ × String × String)) := semijoinExistsKeyPairFrom host innerAlias outerAlias conjuncts 0

def combineSqlAndConjuncts (conjuncts : List SqlExpr) : Option SqlExpr :=
  conjuncts.getLast?.map fun first => conjuncts.dropLast.foldl (fun right left => .binaryOp left .and right) first

end KeyPair

section Correlated
variable (host : Host) (scan : String → Option Expr → Result (List NamedBatch))

def invertBooleanArray (mask : Mask) : Mask := mask.map (Option.map not)

/-- The filter of the conjuncts other than the key pair. -/
def innerFilter (innerAlias : Option String) (innerResidual : List SqlExpr) : Result (Option Expr) :=
  match combineSqlAndConjuncts innerResidual with
  | none => .ok none
  | some residual => (sqlExprToFilterExpr host innerAlias residual).map some

/-- The keys of a correlated subquery, and the column that they are looked up by. What the subquery selects, its
order, LIMIT and OFFSET are not read; `scan` gives the rows of its table that pass a filter. -/
def correlatedExistsKeys (innerAlias : Option String) (innerName outerName : String) (conjuncts : List SqlExpr) :
    Result (Option (String × SemijoinKeySet)) := do
  match ← semijoinExistsKeyPair host conjuncts innerName outerName with
  | none => return none
  | some (joinIndex,innerKey,outerKey) =>
    let innerResidual := conjuncts.eraseIdx joinIndex
    if innerResidual.any (predicateRequiresExpressionPath host) then return none
    else
      let filter ← innerFilter host innerAlias innerResidual
      let batches ← scan innerKey filter
      let keys ← collectSemijoinKeySet host.floats batches innerKey
      return some (outerKey,keys)

def correlatedExistsMask (batch : NamedBatch) (outerKey : String) (keys : SemijoinKeySet) (negated : Bool) : Result Mask :=
  (semijoinMembershipMask host.floats batch outerKey keys).map fun mask =>
    if negated then invertBooleanArray mask else mask

end Correlated
end Dodam.Sql

/-! ## EXISTS answers by rows

EXISTS is true when the subquery has a row after its OFFSET and LIMIT. Counting
rows decides that; counting batches and looking keys up do only where no batch is
empty, no NULL key is met in a loop, and OFFSET and LIMIT leave a matched row.
-/
namespace Dodam.Sql
open Foundation Execution

section Rows

def rowsLeft (limit : Option ℕ) (offset rows : ℕ) : ℕ := limit.elim (rows - offset) (min (rows - offset))

/-- The truth of `[NOT] EXISTS` on a number of rows. -/
def existsTruth (negated : Bool) (rows : ℕ) : Bool := decide (0 < rows) != negated

def outputRows (batches : List RecordBatch) : ℕ := (batches.map RecordBatch.numRows).sum

theorem rowsLeft_pos {limit : Option ℕ} {offset rows : ℕ} : 0 < rowsLeft limit offset rows ↔ offset < rows ∧ limit ≠ some 0 := by
  cases limit with
  | none => simp [rowsLeft]
  | some limit => simp [rowsLeft,Nat.pos_iff_ne_zero]

theorem outputRows_pos {batches : List RecordBatch} : 0 < outputRows batches ↔ ∃ batch ∈ batches, 0 < batch.numRows := by
  induction batches with
  | nil => simp [outputRows]
  | cons batch batches ih =>
    have hcons : outputRows (batch :: batches) = batch.numRows + outputRows batches := rfl
    rw [List.exists_mem_cons_iff,← ih,hcons]
    omega

end Rows

section Uncorrelated
variable {executeSql : Query → Result QueryOutput} {subquery : Query} {negated : Bool} {batches : List RecordBatch}

theorem existsFilter_counts_rows (hbatches : subqueryBatches executeSql subquery = .ok batches) :
    existsFilter executeSql subquery negated = .ok (some (.boolean (some (existsTruth negated (outputRows batches))))) := by
  have hfound : (batches.any fun batch => 0 < batch.numRows) = decide (0 < outputRows batches) := by
    rw [Bool.eq_iff_iff,List.any_eq_true,decide_eq_true_eq,outputRows_pos]
    simp
  unfold existsFilter existsTruth
  rw [hbatches]
  refine congrArg (fun value => Except.ok (some (Expr.boolean (some value)))) ?_
  rw [hfound]
  cases negated <;> simp

theorem existsKeepsRows_iff (hbatches : subqueryBatches executeSql subquery = .ok batches) :
    existsKeepsRows executeSql subquery negated = .ok (existsTruth negated (outputRows batches)) ↔
      (batches = [] ∨ ∃ batch ∈ batches, 0 < batch.numRows) := by
  unfold existsKeepsRows existsTruth
  rw [hbatches,← outputRows_pos]
  simp only [Except.map,Except.ok.injEq]
  cases batches with
  | nil => simp [outputRows]
  | cons batch batches => cases negated <;> simp

end Uncorrelated

section KeyPair
variable {host : Host} {innerAlias outerAlias : String}

variable {executeSql : Query → Result QueryOutput} {ρ : Type*} {M : Meaning host.floats ρ} {row : ρ}
  {resolve : SqlExpr → Result String}

end KeyPair

section Correlated
variable {floats : Floats} {limit : Option ℕ} {offset : ℕ} {aggregated negated : Bool} {arrays : List ArrayRef} {outer : ArrayRef}

/-- The rows of the subquery's table that equal the outer value. -/
def matchedRows (floats : Floats) (cells : List Cell) (x : Cell) : ℕ := cells.countP fun y => x.equals floats y = some true

/-- The rows of the subquery with the outer value in the place of the outer column; an aggregate without groups is one row. -/
def subqueryRows (floats : Floats) (aggregated : Bool) (cells : List Cell) (x : Cell) : ℕ :=
  if aggregated then 1 else matchedRows floats cells x

/-- The keys answer for the rows that OFFSET and LIMIT leave, and a NULL key is met in a loop only where it may be. -/
structure AnswersExists (floats : Floats) (arrays : List ArrayRef) (outer : ArrayRef) (negated aggregated : Bool)
    (limit : Option ℕ) (offset : ℕ) : Prop where
  keys : ∀ x ∈ outer.cells, x ≠ .null →
    ((∃ first, arrays.head? = some first ∧ SharesKey floats first.keyForm (keyCells arrays) x) ↔
      offset < subqueryRows floats aggregated (keyCells arrays) x ∧ limit ≠ some 0)
  nulls : .null ∈ outer.cells →
    ((negated = true ∧ ∃ first, arrays.head? = some first ∧ first.keyForm.ReadsInLoop outer) ↔
      offset < subqueryRows floats aggregated (keyCells arrays) .null ∧ limit ≠ some 0)

variable {host : Host} {keys : SemijoinKeySet} {inner : List NamedBatch} {innerKey outerKey : String} {batch : NamedBatch}
  {mask : Mask} {row : ℕ}

theorem semijoinMembershipMask_rows (harrays : inner.mapM (fun batch => batch.keyArray innerKey) = .ok arrays)
    (hkeys : collectSemijoinKeySet host.floats inner innerKey = .ok keys) (houter : batch.keyArray outerKey = .ok outer)
    (hmask : semijoinMembershipMask host.floats batch outerKey keys = .ok mask) (hrow : row < outer.length) :
    ∃ answer, mask[row]? = some answer ∧
      (answer = some true ↔ ∃ first, arrays.head? = some first ∧
        SharesKey host.floats first.keyForm (keyCells arrays) (outer.cell row)) ∧
      (answer = none ↔ outer.cell row = .null ∧ ∃ first, arrays.head? = some first ∧ first.keyForm.ReadsInLoop outer) := by
  unfold semijoinMembershipMask at hmask
  rw [houter] at hmask
  cases arrays with
  | nil =>
    obtain rfl := collectSemijoinKeySet_empty harrays hkeys
    cases hmask
    exact ⟨some false,by simp [hrow],by simp,by simp⟩
  | cons first arrays =>
    have hcollected := collected harrays hkeys
    obtain ⟨answer,hanswer,htrue,hnone,-⟩ := membershipMask_rows hcollected.form_eq hrow hmask
    rw [hcollected.has_iff] at htrue
    exact ⟨answer,hanswer,by simpa using htrue,by simpa using hnone⟩

/-- A correlated EXISTS keeps the rows for which its subquery has rows, exactly when the keys answer for them. -/
theorem correlatedExistsMask_iff (harrays : inner.mapM (fun batch => batch.keyArray innerKey) = .ok arrays)
    (hkeys : collectSemijoinKeySet host.floats inner innerKey = .ok keys) (houter : batch.keyArray outerKey = .ok outer)
    (hmask : correlatedExistsMask host batch outerKey keys negated = .ok mask) :
    (∀ row < outer.length, mask[row]? = some (some true) ↔
      existsTruth negated (rowsLeft limit offset (subqueryRows host.floats aggregated (keyCells arrays) (outer.cell row))) =
        true) ↔ AnswersExists host.floats arrays outer negated aggregated limit offset := by
  obtain ⟨membership,hmembership,rfl⟩ := map_eq_ok_iff.mp hmask
  have hrow : ∀ row < outer.length,
      ((if negated then invertBooleanArray membership else membership)[row]? = some (some true) ↔
        existsTruth negated (rowsLeft limit offset (subqueryRows host.floats aggregated (keyCells arrays) (outer.cell row))) =
          true) ↔
      (outer.cell row ≠ .null →
        ((∃ first, arrays.head? = some first ∧ SharesKey host.floats first.keyForm (keyCells arrays) (outer.cell row)) ↔
          offset < subqueryRows host.floats aggregated (keyCells arrays) (outer.cell row) ∧ limit ≠ some 0)) ∧
      (outer.cell row = .null →
        ((negated = true ∧ ∃ first, arrays.head? = some first ∧ first.keyForm.ReadsInLoop outer) ↔
          offset < subqueryRows host.floats aggregated (keyCells arrays) (outer.cell row) ∧ limit ≠ some 0)) := by
    intro row hrow
    obtain ⟨answer,hanswer,htrue,hnone⟩ := semijoinMembershipMask_rows harrays hkeys houter hmembership hrow
    have hselected : (if negated then invertBooleanArray membership else membership)[row]? =
        some (if negated then answer.map not else answer) := by
      cases negated <;> simp [invertBooleanArray,hanswer]
    rw [hselected,← htrue,existsTruth,← rowsLeft_pos]
    generalize rowsLeft limit offset (subqueryRows host.floats aggregated (keyCells arrays) (outer.cell row)) = rows
    by_cases hx : outer.cell row = .null
    · have hfalse : answer ≠ some true := by
        rw [ne_eq,htrue,hx]
        rintro ⟨first,-,hshares⟩
        exact not_sharesKey_null hshares
      have hloop : (∃ first, arrays.head? = some first ∧ first.keyForm.ReadsInLoop outer) ↔ answer = none := by
        rw [hnone,and_iff_right hx]
      rw [hloop]
      rcases answer with _ | _ | _ <;> cases negated <;> simp_all
    · have hvalid : answer ≠ none := by
        rw [ne_eq,hnone]
        exact fun h => hx h.1
      rcases answer with _ | _ | _ <;> cases negated <;> simp_all
  rw [forall₂_congr hrow]
  constructor
  · intro hall
    refine ⟨fun x hx hvalid => ?_,fun hx => ?_⟩
    · obtain ⟨row,hlt,rfl⟩ := mem_cells.mp hx
      exact (hall row hlt).1 hvalid
    · obtain ⟨row,hlt,hnull⟩ := mem_cells.mp hx
      have hanswers := (hall row hlt).2 hnull
      rwa [hnull] at hanswers
  · rintro ⟨hkeys,hnulls⟩ row hlt
    have hmem : outer.cell row ∈ outer.cells := mem_cells.mpr ⟨row,hlt,rfl⟩
    refine ⟨hkeys _ hmem,fun hnull => ?_⟩
    rw [hnull] at hmem ⊢
    exact hnulls hmem

end Correlated
section Paths
variable {host : Host} {executeSql : Query → Result QueryOutput} {subquery : Query} {batches : List RecordBatch}
  {scan : String → Option Expr → Result (List NamedBatch)} {innerAlias : Option String} {innerName outerName : String}
  {conjuncts : List SqlExpr} {joinIndex : ℕ} {innerKey outerKey : String} {filter : Option Expr} {inner : List NamedBatch}
  {keys : SemijoinKeySet} {arrays : List ArrayRef} {batch : NamedBatch} {outer : ArrayRef} {mask : Mask}
  {negated : Bool}

theorem correlatedExistsKeys_some
    (hpair : semijoinExistsKeyPair host conjuncts innerName outerName = .ok (some (joinIndex,innerKey,outerKey)))
    (hfilter : innerFilter host innerAlias (conjuncts.eraseIdx joinIndex) = .ok filter)
    (hscan : scan innerKey filter = .ok inner)
    (h : correlatedExistsKeys host scan innerAlias innerName outerName conjuncts = .ok (some (outerKey,keys))) :
    collectSemijoinKeySet host.floats inner innerKey = .ok keys := by
  unfold correlatedExistsKeys at h
  rw [hpair] at h
  obtain ⟨pair,hpair,h⟩ := bind_eq_ok_iff.mp h
  cases hpair
  dsimp only at h
  split_ifs at h
  · cases h
  rw [hfilter] at h
  obtain ⟨found,hfound,h⟩ := bind_eq_ok_iff.mp h
  cases hfound
  rw [hscan] at h
  obtain ⟨found,hfound,h⟩ := bind_eq_ok_iff.mp h
  cases hfound
  obtain ⟨found,hfound,h⟩ := bind_eq_ok_iff.mp h
  cases h
  exact hfound

end Paths

section Examples

/-- Every subquery gives one batch of `rows` rows. -/
def oneBatchEngine (rows : ℕ) (_ : Query) : Result QueryOutput := .ok (.scan [⟨rows,[.int64 (List.replicate rows (some 1))]⟩])

/-- `u.k = t.k` -/
def keyEquality : SqlExpr := .binaryOp (.compoundIdentifier ["u","k"]) .eq (.compoundIdentifier ["t","k"])

def threeScan (_ : String) (_ : Option Expr) : Result (List NamedBatch) := .ok [keyBatch (.int64 [some 3])]

end Examples
end Dodam.Sql
