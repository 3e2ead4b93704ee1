import Dodam.Sql.SubqueryFilters

/-! # Materialised subqueries keep their meaning

A predicate on a column that uses a subquery is turned into a filter of literals, or into a
predicate with literals that is parsed again.
-/
namespace Dodam.Sql
open Foundation Execution RecordBatch SubqueryUse

section Cells
variable {floats : Floats}

/-- A cell of a column is read as its literal. -/
theorem literalValueFromArray_iff {array : ArrayRef} {row : ℕ} {literal : LiteralValue} (hrow : row < array.length) :
    (if array.isNull row then .ok .null else literalValueFromArray floats array row) = .ok literal ↔
      (array.cell row).literal floats = .ok literal := by
  have hvalue : ∀ {α : Type} {values : List (Option α)}, row < values.length →
      ∃ value, values[row]? = some value := fun h => ⟨_,List.getElem?_eq_getElem h⟩
  unfold ArrayRef.isNull literalValueFromArray ArrayRef.cell
  cases array with
  | boolean values | int32 values | int64 values | float64 values | utf8 values | decimal128 precision scale values =>
    obtain ⟨value,hvalue⟩ := hvalue hrow
    cases value <;> simp [hvalue,cellValue,okOr,Cell.literal,Except.map]
  | date32 values =>
    obtain ⟨value,hvalue⟩ := hvalue hrow
    cases value with
    | none => simp [hvalue,Cell.literal]
    | some days => cases hdate : civilFromDays days.toInt <;> simp [hvalue,cellValue,okOr,Cell.literal,Except.map,hdate]
  | date64 values =>
    obtain ⟨value,hvalue⟩ := hvalue hrow
    cases value with
    | none => simp [hvalue,Cell.literal]
    | some millis =>
      cases hdate : civilFromDays (millis.toInt.tdiv 86400000) <;>
        simp [hvalue,cellValue,okOr,Cell.literal,Except.map,hdate]
  | uint32 values | timestampMillisecond dataType values =>
    obtain ⟨value,hvalue⟩ := hvalue hrow
    cases value <;> simp [hvalue,Cell.literal,unsupportedSql]
  | other dataType nulls =>
    by_cases hnull : nulls[row]? = some true <;> simp [hnull,Cell.literal,unsupportedSql]

def RecordBatch.OneColumn (batch : RecordBatch) : Prop :=
  ∃ array, batch.columns = [array] ∧ array.length = batch.numRows

variable {literals : List LiteralValue} {batches : List RecordBatch}

theorem literalValuesFromBatch_iff {batch : RecordBatch} (h : batch.OneColumn) :
    literalValuesFromBatch floats batch = .ok literals ↔ batch.cells.mapM (Cell.literal floats) = .ok literals := by
  obtain ⟨array,hcolumns,hlength⟩ := h
  unfold literalValuesFromBatch cells
  rw [hcolumns]
  dsimp only [List.head?_cons,okOr,Option.elim_some]
  rw [except_bind_ok,mapM_ok_iff,mapM_ok_iff,List.forall₂_map_left_iff]
  refine forall₂_congr_mem fun row hrow _ => literalValueFromArray_iff ?_
  rw [hlength]
  exact List.mem_range.mp hrow

theorem flatten_literalValues_iff (h : ∀ batch ∈ batches, batch.OneColumn) :
    (batches.mapM (literalValuesFromBatch floats)).map List.flatten = .ok literals ↔
      (batches.flatMap cells).mapM (Cell.literal floats) = .ok literals := by
  induction batches generalizing literals with
  | nil => exact Iff.rfl
  | cons batch batches ih =>
    rw [List.forall_mem_cons] at h
    rw [List.flatMap_cons,List.mapM_append,map_eq_ok_iff,List.mapM_cons]
    constructor
    · rintro ⟨parts,hparts,rfl⟩
      obtain ⟨first,hfirst,hparts⟩ := bind_eq_ok_iff.mp hparts
      obtain ⟨rest,hrest,hparts⟩ := bind_eq_ok_iff.mp hparts
      cases hparts
      have hcells := (ih h.2).mp (map_eq_ok_iff.mpr ⟨rest,hrest,rfl⟩)
      exact bind_eq_ok_iff.mpr ⟨first,(literalValuesFromBatch_iff h.1).mp hfirst,
        bind_eq_ok_iff.mpr ⟨rest.flatten,hcells,rfl⟩⟩
    · intro hcells
      obtain ⟨first,hfirst,hcells⟩ := bind_eq_ok_iff.mp hcells
      obtain ⟨others,hothers,hcells⟩ := bind_eq_ok_iff.mp hcells
      cases hcells
      obtain ⟨rest,hrest,rfl⟩ := map_eq_ok_iff.mp ((ih h.2).mpr hothers)
      refine ⟨first :: rest,?_,rfl⟩
      exact bind_eq_ok_iff.mpr ⟨first,(literalValuesFromBatch_iff h.1).mpr hfirst,bind_eq_ok_iff.mpr ⟨rest,hrest,rfl⟩⟩

theorem literalValuesFromSingleColumnBatches_iff (h : ∀ batch ∈ batches, batch.OneColumn) :
    literalValuesFromSingleColumnBatches floats batches = .ok literals ↔
      List.Forall₂ (fun cell literal => cell.literal floats = .ok literal) (batches.flatMap cells) literals := by
  rw [← mapM_ok_iff,← flatten_literalValues_iff h]
  cases batches with
  | nil => exact Iff.rfl
  | cons first batches =>
    obtain ⟨array,hcolumns,-⟩ := h first List.mem_cons_self
    unfold literalValuesFromSingleColumnBatches
    dsimp only [List.head?_cons]
    rw [if_neg (by simp [hcolumns])]

theorem exists_standsFor {cell : Cell} {type : TestedType} (column : String) (hsuits : cell.Suits type)
    (hexact : cell.ReadsExactly floats type) :
    ∃ literal, cell.literal floats = .ok literal ∧ cell.StandsFor floats type column literal := by
  by_cases hnull : cell = .null
  · exact ⟨.null,by rw [hnull]; rfl,Or.inl ⟨hnull,rfl⟩⟩
  · have hliteral : ∃ literal, cell.literal floats = .ok literal ∧ literal ≠ .null := by
      cases cell with
      | null => exact absurd rfl hnull
      | unread => exact hexact.elim
      | boolean _ | integer _ | decimal _ _ | double _ | text _ => exact ⟨_,rfl,fun h => nomatch h⟩
      | date days =>
        obtain ⟨year,month,day,hdate,-⟩ := civilFromDays_of_mem (inCalendar_of_days ⟨days.le_toInt,days.toInt_lt⟩)
        exact ⟨_,map_eq_ok_iff.mpr ⟨_,hdate,rfl⟩,fun h => nomatch h⟩
      | dateTime millis =>
        obtain ⟨year,month,day,hdate,-⟩ :=
          civilFromDays_of_mem (inCalendar_of_millis ⟨millis.le_toInt,millis.toInt_lt⟩)
        exact ⟨_,map_eq_ok_iff.mpr ⟨_,hdate,rfl⟩,fun h => nomatch h⟩
    obtain ⟨literal,hliteral,hne⟩ := hliteral
    exact ⟨literal,hliteral,Or.inr ⟨hnull,hne,(typedLiteral_iff hnull hsuits hliteral).mpr hexact⟩⟩

theorem exists_standsFor_list {cells : List Cell} {type : TestedType} (column : String)
    (hsuits : ∀ cell ∈ cells, cell.Suits type) (hexact : ∀ cell ∈ cells, cell.ReadsExactly floats type) :
    ∃ literals, List.Forall₂ (fun cell literal => cell.literal floats = .ok literal) cells literals ∧
      List.Forall₂ (Cell.StandsFor floats type column) cells literals := by
  induction cells with
  | nil => exact ⟨[],.nil,.nil⟩
  | cons cell cells ih =>
    rw [List.forall_mem_cons] at hsuits hexact
    obtain ⟨literal,hliteral,hstands⟩ := exists_standsFor column hsuits.1 hexact.1
    obtain ⟨literals,hliterals,hrest⟩ := ih hsuits.2 hexact.2
    exact ⟨literal :: literals,.cons hliteral hliterals,.cons hstands hrest⟩

end Cells

section Routes

def comparisonOperator : ComparisonOp → BinaryOperator
  | .eq => .eq
  | .notEq => .notEq
  | .lt => .lt
  | .ltEq => .ltEq
  | .gt => .gt
  | .gtEq => .gtEq

/-- The predicate that tests a column against a subquery. -/
def SubqueryUse.predicate (use : SubqueryUse) (left : SqlExpr) (subquery : Query) : SqlExpr :=
  match use with
  | .comparison op => .binaryOp left (comparisonOperator op) (.subquery subquery)
  | .membership negated => .inSubquery left subquery negated

/-- The filter of a predicate whose subqueries have been rewritten, and that has been printed and parsed again. -/
def rewrittenFilter (host : Host) (executeSql : Query → Result QueryOutput) (tableAlias : Option String)
    (reparse : SqlExpr → SqlExpr) (expr : SqlExpr) : Result (Option Expr) := do
  match ← rewriteMaterializableSubqueriesToLiterals host.floats executeSql expr with
  | none => return none
  | some (expr,_) => return some (← sqlExprToFilterExpr host tableAlias (reparse expr))

/-- The filter gives every row of every batch the truth value. -/
def Preserves {γ : Type*} (kernels : Kernels γ) (column : String) (type : TestedType) (filter : Result (Option Expr))
    (truth : Option (Datum γ) → Option Bool) : Prop :=
  ∃ expr, filter = .ok (some expr) ∧ ∀ (batch : Batch γ) (data : List (Option (Datum γ))),
    HoldsColumn batch column type data → evaluateFilter kernels batch expr = .ok (data.map truth)

structure SubqueryTest (host : Host) (executeSql : Query → Result QueryOutput) (tableAlias : Option String)
    (type : TestedType) (left : SqlExpr) (column : String) (subquery : Query) (batches : List RecordBatch) : Prop where
  executes : subqueryBatches executeSql subquery = .ok batches
  oneColumn : ∀ batch ∈ batches, batch.OneColumn
  column : sqlFilterColumn host tableAlias left = .ok column
  suits : ∀ cell ∈ batches.flatMap cells, cell.Suits type

/-- What the parser makes of a printed predicate. A number with a minus sign is the negation of a number. -/
structure ParsesBack (reparse : SqlExpr → SqlExpr) (left : SqlExpr) : Prop where
  column : reparse left = left
  boolean : ∀ value, reparse (.value (.boolean value)) = .value (.boolean value)
  null : reparse (.value .null) = .value .null
  text : ∀ text, reparse (.value (.singleQuotedString text)) = .value (.singleQuotedString text)
  number : ∀ n : ℕ, reparse (.value (.number (toString n) false)) = .value (.number (toString n) false)
  negative : ∀ n : ℕ, reparse (.value (.number ("-" ++ toString n) false)) =
    .unaryOp .minus (.value (.number (toString n) false))
  comparison : ∀ op literal, reparse (.binaryOp left (comparisonOperator op) (literalValueToSqlExpr literal)) =
    .binaryOp (reparse left) (comparisonOperator op) (reparse (literalValueToSqlExpr literal))
  inList : ∀ (literals : List LiteralValue) negated, literals ≠ [] → reparse (.inList left (literals.map literalValueToSqlExpr) negated) =
    .inList (reparse left) (literals.map fun literal => reparse (literalValueToSqlExpr literal)) negated

/-- The literal's expression is read again as a literal of the same value. -/
def RereadsAs (host : Host) (reparse : SqlExpr → SqlExpr) (type : TestedType) (column : String) (literal : LiteralValue) :
    Prop :=
  ∃ again, sqlLiteralValue host (reparse (literalValueToSqlExpr literal)) = .ok again ∧ again ≠ .null ∧
    typedLiteral host.floats type column again = typedLiteral host.floats type column literal

/-- The least integer has no literal of its own, and a double is read again as what is printed of it. -/
def Cell.ReadsBack (host : Host) (reparse : SqlExpr → SqlExpr) (type : TestedType) (column : String) : Cell → Prop
  | .integer value => value ≠ Int64.minValue
  | .decimal value scale => RereadsAs host reparse type column (.float64 (host.floats.ofDecimal value scale))
  | .double display => RereadsAs host reparse type column (.float64 display)
  | _ => True

end Routes

section Reparse
variable {host : Host} {tableAlias : Option String} {reparse : SqlExpr → SqlExpr} {left : SqlExpr} {column : String}

theorem literalOfValue_number {n : ℕ} (h : InSigned 64 n) :
    sqlLiteralValue host (.value (.number (toString n) false)) = .ok (.int64 (Int64.ofInt n)) := by
  have hparse : parseSigned 64 (toString n).toList = some (n : ℤ) := by
    have htext : toString (Int.ofNat n) = toString n := rfl
    rw [← htext]
    exact parseSigned_toString h
  unfold sqlLiteralValue literalOfValue
  dsimp only
  rw [hparse]

/-- Every integer but the least one is read again. -/
theorem rereadsAs_integer {value : Int64} {type : TestedType} (hparse : ParsesBack reparse left)
    (hvalue : value ≠ Int64.minValue) : RereadsAs host reparse type column (.int64 value) := by
  have hrange : -2 ^ 63 ≤ value.toInt ∧ value.toInt < 2 ^ 63 := ⟨value.le_toInt,value.toInt_lt⟩
  refine ⟨.int64 value,?_,nofun,rfl⟩
  unfold literalValueToSqlExpr
  dsimp only
  cases hn : value.toInt with
  | ofNat n =>
    have hsigned : InSigned 64 n := by
      rw [hn] at hrange
      exact hrange
    have htext : toString (Int.ofNat n) = toString n := rfl
    have hvalue' : Int64.ofInt (n : ℤ) = value := by
      rw [← Int.ofNat_eq_natCast,← hn,Int64.ofInt_toInt]
    rw [htext,hparse.number,literalOfValue_number hsigned,hvalue']
  | negSucc n =>
    have hleast : value.toInt ≠ -2 ^ 63 := fun h => hvalue (Int64.toInt_inj.mp (h.trans rfl))
    have hsigned : InSigned 64 (n + 1 : ℕ) := by
      rw [hn] at hrange hleast
      unfold InSigned
      omega
    have htext : toString (Int.negSucc n) = "-" ++ toString (n + 1) := rfl
    have hpositive : (Int64.ofInt (n + 1 : ℕ)).toInt = (n + 1 : ℕ) := Int64.toInt_ofInt_of_le hsigned.1 hsigned.2
    have hnegated : Int64.ofInt (-((n + 1 : ℕ) : ℤ)) = value := by
      rw [← Int64.ofInt_toInt value,hn]
      rfl
    have hchecked : checkedSigned 64 (-((n + 1 : ℕ) : ℤ)) = some (-((n + 1 : ℕ) : ℤ)) := by
      refine checkedSigned_of_mem ?_
      unfold InSigned at hsigned ⊢
      omega
    rw [htext,hparse.negative]
    unfold sqlLiteralValue
    rw [literalOfValue_number hsigned]
    refine bind_eq_ok_iff.mpr ⟨_,rfl,?_⟩
    unfold negateLiteral
    dsimp only
    rw [hpositive,hchecked]
    exact congrArg (fun n => Except.ok (LiteralValue.int64 n)) hnegated

theorem rereadsAs_cell {cell : Cell} {type : TestedType} {literal : LiteralValue} (hparse : ParsesBack reparse left)
    (hnull : cell ≠ .null) (h : cell.ReadsBack host reparse type column)
    (hliteral : cell.literal host.floats = .ok literal) : RereadsAs host reparse type column literal := by
  cases cell with
  | null => exact absurd rfl hnull
  | unread => exact absurd hliteral (nofun)
  | integer value =>
    cases hliteral
    exact rereadsAs_integer hparse h
  | decimal value scale | double display =>
    cases hliteral
    exact h
  | boolean value =>
    cases hliteral
    exact ⟨.boolean value,by rw [literalValueToSqlExpr,hparse.boolean]; rfl,nofun,rfl⟩
  | text value =>
    cases hliteral
    exact ⟨.utf8 value,by rw [literalValueToSqlExpr,hparse.text]; rfl,nofun,rfl⟩
  | date days | dateTime millis =>
    obtain ⟨date,-,rfl⟩ := map_eq_ok_iff.mp hliteral
    exact ⟨.utf8 (dateText date),by rw [literalValueToSqlExpr,hparse.text]; rfl,nofun,rfl⟩

end Reparse

section Columns
variable {host : Host} {executeSql : Query → Result QueryOutput} {tableAlias : Option String} {left : SqlExpr} {column : String}

theorem sqlLiteralValue_column (h : sqlFilterColumn host tableAlias left = .ok column) :
    ∃ error, sqlLiteralValue host left = .error error := by
  cases left with
  | identifier _ | compoundIdentifier _ | nested _ => exact ⟨_,rfl⟩
  | _ => exact absurd h (unsupportedSql_ne_ok _ _)

theorem maybeSqlFilterColumn_literal {expr : SqlExpr} {literal : LiteralValue} (h : sqlLiteralValue host expr = .ok literal) :
    maybeSqlFilterColumn host tableAlias expr = .ok none := by
  cases expr with
  | identifier _ | compoundIdentifier _ | nested _ => exact absurd h (unsupportedSql_ne_ok _ _)
  | _ => rfl

theorem rewrite_column (h : sqlFilterColumn host tableAlias left = .ok column) :
    rewriteMaterializableSubqueriesToLiterals host.floats executeSql left = .ok (some (left,false)) := by
  induction left using sqlFilterColumn.induct with
  | case1 value => rfl
  | case2 parts => rfl
  | case3 expr ih =>
    unfold rewriteMaterializableSubqueriesToLiterals
    rw [ih h]
    rfl
  | case4 expr hidentifier hcompound hnested =>
    cases expr with
    | identifier value => exact absurd rfl (hidentifier value)
    | compoundIdentifier parts => exact absurd rfl (hcompound parts)
    | nested expr => exact absurd rfl (hnested expr)
    | _ => exact absurd h (unsupportedSql_ne_ok _ _)

end Columns

section Preserve
variable {γ : Type*} {host : Host} {executeSql : Query → Result QueryOutput} {tableAlias : Option String}
  {order : γ → String → Option Ordering} {kernels : Kernels γ} {type : TestedType} {left : SqlExpr} {column : String}
  {subquery : Query} {batches : List RecordBatch}

variable {literal : LiteralValue} {op : ComparisonOp}

theorem scalarLiteralValueFromBatches_iff {floats : Floats}
    (hone : ∀ batch ∈ batches, batch.OneColumn) (hlength : (batches.flatMap cells).length ≤ 1) :
    scalarLiteralValueFromBatches floats batches = .ok literal ↔
      ((batches.flatMap cells).head?.getD .null).literal floats = .ok literal := by
  unfold scalarLiteralValueFromBatches
  rw [except_bind_eq_ok]
  simp only [literalValuesFromSingleColumnBatches_iff hone]
  cases hcells : batches.flatMap cells with
  | nil =>
    constructor
    · rintro ⟨literals,hliterals,h⟩
      cases hliterals
      exact h
    · intro h
      exact ⟨[],.nil,h⟩
  | cons cell cells =>
    rw [hcells,List.length_cons] at hlength
    obtain rfl : cells = [] := List.length_eq_zero_iff.mp (by omega)
    constructor
    · rintro ⟨literals,hliterals,h⟩
      cases hliterals with
      | cons hcell hrest =>
        cases hrest
        cases h
        exact hcell
    · intro h
      exact ⟨[literal],.cons h .nil,rfl⟩

theorem evaluateFilter_comparison {cells : List Cell} {batch : Batch γ}
    {data : List (Option (Datum γ))} (hdoubles : ComparesDoubles host.floats order kernels)
    (hcolumn : HoldsColumn batch column type data)
    (h : (cells.head?.getD .null).StandsFor host.floats type column literal) :
    evaluateFilter kernels batch (.comparison ⟨column,op,literal⟩) =
      .ok (data.map ((comparison op).truth host.floats order type cells)) := by
  unfold evaluateFilter
  rw [evaluateBatchComparison_cell hdoubles hcolumn h]
  refine congrArg Except.ok (List.map_congr_left fun x _ => ?_)
  cases cells with
  | nil => exact compareCell_null x
  | cons cell cells => rfl

variable (htest : SubqueryTest host executeSql tableAlias type left column subquery batches)
  (hdoubles : ComparesDoubles host.floats order kernels)
include htest

theorem parseFilter_comparison
    (h : scalarLiteralValueFromBatches host.floats batches = .ok literal) :
    parseFilterWithSubqueries host executeSql tableAlias ((comparison op).predicate left subquery) =
      .ok (some (.comparison ⟨column,op,literal⟩)) := by
  obtain ⟨error,herror⟩ := sqlLiteralValue_column htest.column
  have hroute : parseFilterWithSubqueries host executeSql tableAlias
      ((comparison op).predicate left subquery) =
        scalarSubqueryFilter host executeSql tableAlias left op subquery := by
    cases op <;> rfl
  rw [hroute]
  unfold scalarSubqueryFilter
  rw [htest.executes,except_bind_ok,h,except_bind_ok,herror,htest.column]
  rfl

theorem parseFilter_membership {negated : Bool} {literals : List LiteralValue}
    (h : literalValuesFromSingleColumnBatches host.floats batches = .ok literals) :
    parseFilterWithSubqueries host executeSql tableAlias ((membership negated).predicate left subquery) =
      .ok (some (.inList column (nonNullSubqueryValues literals) negated (subqueryValuesContainNull literals))) := by
  obtain ⟨error,herror⟩ := sqlLiteralValue_column htest.column
  have hroute : parseFilterWithSubqueries host executeSql tableAlias
      ((membership negated).predicate left subquery) =
        inSubqueryFilter host executeSql tableAlias left subquery negated := rfl
  rw [hroute]
  unfold inSubqueryFilter
  rw [htest.executes,except_bind_ok,h,except_bind_ok,herror,htest.column]
  rfl

theorem materializableBatches_eq : materializableBatches executeSql subquery = .ok (some batches) := by
  obtain ⟨output,houtput,hbatches⟩ := bind_eq_ok_iff.mp htest.executes
  unfold materializableBatches
  rw [houtput]
  exact map_eq_ok_iff.mpr ⟨batches,hbatches,rfl⟩

theorem rewrittenFilter_comparison {reparse : SqlExpr → SqlExpr} {again : LiteralValue}
    (hparse : ParsesBack reparse left) (h : scalarLiteralValueFromBatches host.floats batches = .ok literal)
    (hagain : sqlLiteralValue host (reparse (literalValueToSqlExpr literal)) = .ok again) :
    rewrittenFilter host executeSql tableAlias reparse ((comparison op).predicate left subquery) =
      .ok (some (.comparison ⟨column,op,again⟩)) := by
  obtain ⟨error,herror⟩ := sqlLiteralValue_column htest.column
  have hrewrite : rewriteMaterializableSubqueriesToLiterals host.floats executeSql
      ((comparison op).predicate left subquery) =
        .ok (some (.binaryOp left (comparisonOperator op) (literalValueToSqlExpr literal),true)) := by
    unfold predicate rewriteMaterializableSubqueriesToLiterals
    rw [rewrite_column htest.column,except_bind_ok]
    unfold rewriteMaterializableSubqueriesToLiterals rewriteScalarSubquery
    rw [materializableBatches_eq htest,except_bind_ok]
    dsimp only
    rw [h]
    rfl
  have hfilter : sqlExprToFilterExpr host tableAlias
      (.binaryOp left (comparisonOperator op) (reparse (literalValueToSqlExpr literal))) =
        comparisonFilter host tableAlias left op (reparse (literalValueToSqlExpr literal)) := by
    cases op <;> rfl
  have hcompare : comparisonFilter host tableAlias left op (reparse (literalValueToSqlExpr literal)) =
      .ok (.comparison ⟨column,op,again⟩) := by
    unfold comparisonFilter columnFilter
    rw [herror,htest.column,maybeSqlFilterColumn_literal hagain,hagain]
    rfl
  unfold rewrittenFilter
  rw [hrewrite,except_bind_ok]
  dsimp only
  rw [hparse.comparison,hparse.column,hfilter,hcompare]
  rfl

theorem rewrittenFilter_membership {reparse : SqlExpr → SqlExpr} {negated : Bool} {literals again : List LiteralValue}
    (hparse : ParsesBack reparse left) (h : literalValuesFromSingleColumnBatches host.floats batches = .ok literals)
    (hagain : literals.mapM (fun literal => sqlLiteralValue host (reparse (literalValueToSqlExpr literal))) = .ok again) :
    rewrittenFilter host executeSql tableAlias reparse ((membership negated).predicate left subquery) =
      .ok (some (if literals.isEmpty then .boolean (some negated)
        else .inList column (nonNullSubqueryValues again) negated (subqueryValuesContainNull again))) := by
  have hrewrite : rewriteMaterializableSubqueriesToLiterals host.floats executeSql
      ((membership negated).predicate left subquery) = .ok (some (inLiterals left literals negated,true)) := by
    unfold predicate rewriteMaterializableSubqueriesToLiterals rewriteInSubquery
    rw [materializableBatches_eq htest,except_bind_ok]
    dsimp only
    rw [h]
    rfl
  unfold rewrittenFilter
  rw [hrewrite,except_bind_ok]
  dsimp only
  unfold inLiterals
  split_ifs with hempty
  · rw [hparse.boolean]
    rfl
  · have hne : literals ≠ [] := by simpa using hempty
    have hliterals : (literals.map fun literal => reparse (literalValueToSqlExpr literal)).mapM (sqlLiteralValue host) =
        .ok again := by
      rw [List.mapM_map]
      exact hagain
    rw [hparse.inList literals negated hne,hparse.column]
    unfold sqlExprToFilterExpr inListFilter nonNullLiteralValues
    rw [htest.column,literalListContainsNull_eq hliterals,hliterals]
    rfl

include hdoubles

theorem parseFilter_preserves {use : SubqueryUse} (hallows : use.Allows (batches.flatMap cells))
    (hexact : ∀ cell ∈ batches.flatMap cells, cell.ReadsExactly host.floats type) :
    Preserves kernels column type (parseFilterWithSubqueries host executeSql tableAlias (use.predicate left subquery))
      (use.truth host.floats order type (batches.flatMap cells)) := by
  cases use with
  | comparison op =>
    have hhead : ∃ literal, ((batches.flatMap cells).head?.getD .null).literal host.floats = .ok literal ∧
        ((batches.flatMap cells).head?.getD .null).StandsFor host.floats type column literal := by
      cases hcells : batches.flatMap RecordBatch.cells with
      | nil => exact ⟨.null,rfl,Or.inl ⟨rfl,rfl⟩⟩
      | cons cell cells =>
        have hmem : cell ∈ batches.flatMap RecordBatch.cells := by
          rw [hcells]
          exact List.mem_cons_self
        exact exists_standsFor column (htest.suits cell hmem) (hexact cell hmem)
    obtain ⟨literal,hliteral,hstands⟩ := hhead
    have hvalue := (scalarLiteralValueFromBatches_iff htest.oneColumn hallows).mpr hliteral
    exact ⟨_,parseFilter_comparison htest hvalue,fun batch data hcolumn =>
      evaluateFilter_comparison hdoubles hcolumn hstands⟩
  | membership negated =>
    obtain ⟨literals,hliterals,hstands⟩ := exists_standsFor_list column htest.suits hexact
    have hvalues := (literalValuesFromSingleColumnBatches_iff htest.oneColumn).mpr hliterals
    exact ⟨_,parseFilter_membership htest hvalues,fun batch data hcolumn =>
      evaluateFilter_inList hdoubles hcolumn hstands⟩

omit htest hdoubles in
theorem exists_again {cell : Cell} {reparse : SqlExpr → SqlExpr} (hparse : ParsesBack reparse left)
    (hsuits : cell.Suits type) (hexact : cell.ReadsExactly host.floats type)
    (hback : cell.ReadsBack host reparse type column) :
    ∃ literal again, cell.literal host.floats = .ok literal ∧
      sqlLiteralValue host (reparse (literalValueToSqlExpr literal)) = .ok again ∧
      cell.StandsFor host.floats type column again := by
  obtain ⟨literal,hliteral,hstands⟩ := exists_standsFor column hsuits hexact
  rcases hstands with ⟨hnull,rfl⟩ | ⟨hnull,hne,d,hd,hdatum⟩
  · refine ⟨.null,.null,hliteral,?_,Or.inl ⟨hnull,rfl⟩⟩
    unfold literalValueToSqlExpr
    rw [hparse.null]
    rfl
  · obtain ⟨again,hagain,hagain',htyped⟩ := rereadsAs_cell hparse hnull hback hliteral
    exact ⟨literal,again,hliteral,hagain,Or.inr ⟨hnull,hagain',d,htyped.trans hd,hdatum⟩⟩

omit htest hdoubles in
theorem exists_again_list {cells : List Cell} {reparse : SqlExpr → SqlExpr} (hparse : ParsesBack reparse left)
    (hsuits : ∀ cell ∈ cells, cell.Suits type) (hexact : ∀ cell ∈ cells, cell.ReadsExactly host.floats type)
    (hback : ∀ cell ∈ cells, cell.ReadsBack host reparse type column) :
    ∃ literals again, List.Forall₂ (fun cell literal => cell.literal host.floats = .ok literal) cells literals ∧
      literals.mapM (fun literal => sqlLiteralValue host (reparse (literalValueToSqlExpr literal))) = .ok again ∧
      List.Forall₂ (Cell.StandsFor host.floats type column) cells again := by
  induction cells with
  | nil => exact ⟨[],[],.nil,rfl,.nil⟩
  | cons cell cells ih =>
    rw [List.forall_mem_cons] at hsuits hexact hback
    obtain ⟨literal,again,hliteral,hagain,hstands⟩ := exists_again hparse hsuits.1 hexact.1 hback.1
    obtain ⟨literals,others,hliterals,hothers,hrest⟩ := ih hsuits.2 hexact.2 hback.2
    exact ⟨literal :: literals,again :: others,.cons hliteral hliterals,
      mapM_ok_iff.mpr (.cons hagain (mapM_ok_iff.mp hothers)),.cons hstands hrest⟩

/-- Where every cell reads exactly and is read back, the rewritten predicate keeps its truth value too. -/
theorem rewrittenFilter_preserves {use : SubqueryUse} {reparse : SqlExpr → SqlExpr} (hparse : ParsesBack reparse left)
    (hallows : use.Allows (batches.flatMap cells))
    (hexact : ∀ cell ∈ batches.flatMap cells, cell.ReadsExactly host.floats type)
    (hback : ∀ cell ∈ batches.flatMap cells, cell.ReadsBack host reparse type column) :
    Preserves kernels column type (rewrittenFilter host executeSql tableAlias reparse (use.predicate left subquery))
      (use.truth host.floats order type (batches.flatMap cells)) := by
  cases use with
  | comparison op =>
    have hhead : ∃ literal again, ((batches.flatMap cells).head?.getD .null).literal host.floats = .ok literal ∧
        sqlLiteralValue host (reparse (literalValueToSqlExpr literal)) = .ok again ∧
        ((batches.flatMap cells).head?.getD .null).StandsFor host.floats type column again := by
      cases hcells : batches.flatMap RecordBatch.cells with
      | nil => exact exists_again hparse trivial trivial trivial
      | cons cell cells =>
        have hmem : cell ∈ batches.flatMap RecordBatch.cells := by
          rw [hcells]
          exact List.mem_cons_self
        exact exists_again hparse (htest.suits cell hmem) (hexact cell hmem) (hback cell hmem)
    obtain ⟨literal,again,hliteral,hagain,hstands⟩ := hhead
    have hvalue := (scalarLiteralValueFromBatches_iff htest.oneColumn hallows).mpr hliteral
    exact ⟨_,rewrittenFilter_comparison htest hparse hvalue hagain,fun batch data hcolumn =>
      evaluateFilter_comparison hdoubles hcolumn hstands⟩
  | membership negated =>
    obtain ⟨literals,again,hliterals,hagain,hstands⟩ := exists_again_list hparse htest.suits hexact hback
    have hvalues := (literalValuesFromSingleColumnBatches_iff htest.oneColumn).mpr hliterals
    refine ⟨_,rewrittenFilter_membership htest hparse hvalues hagain,fun batch data hcolumn => ?_⟩
    split_ifs with hempty
    · rw [List.isEmpty_iff.mp hempty,List.forall₂_nil_right_iff] at hliterals
      obtain ⟨-,-,-,-,-,-,hlength⟩ := hcolumn
      have hnone : data.map ((membership negated).truth host.floats order type []) =
          List.replicate batch.numRows (some negated) := by
        rw [← hlength]
        refine List.eq_replicate_iff.mpr ⟨List.length_map _,List.forall_mem_map.mpr fun x _ => ?_⟩
        cases negated <;> rfl
      rw [hliterals,hnone]
      rfl
    · exact evaluateFilter_inList hdoubles hcolumn hstands

end Preserve

section Necessary
variable {γ : Type*} {floats : Floats} (order : γ → String → Option Ordering)

theorem holds_eq {κ : Type} [LinearOrder κ] (a b : κ) : some (decide ((OrderTest.eq).Holds a b)) = some true ↔ b = a := by
  rw [Option.some.injEq,decide_eq_true_iff]
  exact eq_comm

theorem compare_boolean (x : Bool) (e : Datum String) : (Datum.boolean x).compare order .eq e = some true ↔ e = .boolean x := by
  cases e with
  | boolean y => exact (holds_eq x y).trans (Datum.boolean.injEq y x).symm.to_iff
  | number _ | instant _ | text _ | double _ => exact iff_of_false nofun nofun

theorem compare_number (x : ℚ) (e : Datum String) : (Datum.number x).compare order .eq e = some true ↔ e = .number x := by
  cases e with
  | number y => exact (holds_eq x y).trans (Datum.number.injEq y x).symm.to_iff
  | boolean _ | instant _ | text _ | double _ => exact iff_of_false nofun nofun

theorem compare_instant (x : ℚ) (e : Datum String) : (Datum.instant x).compare order .eq e = some true ↔ e = .instant x := by
  cases e with
  | instant y => exact (holds_eq x y).trans (Datum.instant.injEq y x).symm.to_iff
  | boolean _ | number _ | text _ | double _ => exact iff_of_false nofun nofun

theorem compare_text (x : String) (e : Datum String) : (Datum.text x).compare order .eq e = some true ↔ e = .text x := by
  cases e with
  | text y => exact (holds_eq x y).trans (Datum.text.injEq y x).symm.to_iff
  | boolean _ | number _ | instant _ | double _ => exact iff_of_false nofun nofun

theorem physicalSameColumn_self (column : String) : physicalSameColumn column column = true := by
  have hself : ∀ text : List Char, sameSegments text text = true := fun text => by simp [sameSegments]
  have hdepth : ∀ depth (text : List Char), physicalSameColumnTo depth text text = true := by
    intro depth text
    cases depth with
    | zero => exact hself text
    | succ depth =>
      unfold physicalSameColumnTo
      split
      · rw [hself,Bool.or_true]
      · exact hself text
  exact hdepth _ _

theorem holdsColumn_single {column : String} {stored : BatchColumn γ} {type : TestedType} {data : List (Option (Datum γ))}
    (h : columnData stored = some (type,data)) : HoldsColumn ⟨data.length,[(column,stored)]⟩ column type data := by
  refine ⟨0,column,stored,?_,rfl,h,rfl⟩
  unfold columnIndex Batch.names
  simp [List.findIdx?_cons,physicalSameColumn_self]

theorem exists_empty_column (type : TestedType) : ∃ stored : BatchColumn γ, columnData stored = some (type,[]) := by
  cases type with
  | int32 => exact ⟨.stored (.int32 []),rfl⟩
  | int64 => exact ⟨.stored (.int64 []),rfl⟩
  | uint64 => exact ⟨.stored (.uint64 []),rfl⟩
  | boolean => exact ⟨.stored (.boolean []),rfl⟩
  | date32 => exact ⟨.stored (.date32 []),rfl⟩
  | date64 => exact ⟨.stored (.date64 []),rfl⟩
  | scaled type => exact ⟨.stored (.scaled type []),rfl⟩
  | utf8 => exact ⟨.stored (.utf8 []),rfl⟩
  | float64 => exact ⟨.float64 [],rfl⟩

/-- A column of every type but that of doubles can hold what a literal is read as. -/
theorem exists_column_of_typed {type : TestedType} {column : String} {literal : LiteralValue} {d : Datum String}
    (htype : type ≠ .float64) (h : typedLiteral floats type column literal = .ok d) :
    ∃ (stored : BatchColumn γ) (x : Datum γ), columnData stored = some (type,[some x]) ∧
      ∀ e, x.compare order .eq e = some true ↔ e = d := by
  cases type with
  | float64 => exact absurd rfl htype
  | boolean =>
    obtain ⟨b,-,rfl⟩ := map_eq_ok_iff.mp h
    exact ⟨.stored (.boolean [some b]),.boolean b,rfl,compare_boolean order b⟩
  | utf8 =>
    cases h
    exact ⟨.stored (.utf8 [some literal.asStr]),.text literal.asStr,rfl,compare_text order _⟩
  | scaled type =>
    obtain ⟨t,-,rfl⟩ := map_eq_ok_iff.mp h
    refine ⟨.stored (.scaled type [some t]),scaledDatum type t,rfl,?_⟩
    cases type with
    | decimal128 precision scale => exact compare_number order _
    | timestamp unit => exact compare_instant order _
  | int32 =>
    obtain ⟨v,hv,rfl⟩ := map_eq_ok_iff.mp h
    refine ⟨.stored (.int32 [some (Int32.ofInt v)]),.number v,?_,compare_number order _⟩
    have hrange : InSigned 32 v := by
      cases literal with
      | int64 n =>
        obtain ⟨hmem,rfl⟩ := checkedSigned_eq_some.mp (okOr_invalidComparison.mp hv)
        exact hmem
      | _ => exact absurd hv (invalidFilter_ne_ok _ _)
    have hstored : (Int32.ofInt v).toInt = v := Int32.toInt_ofInt_of_le hrange.1 hrange.2
    exact congrArg (fun n : ℤ => some (TestedType.int32,[some (Datum.number (n : ℚ))])) hstored
  | int64 =>
    obtain ⟨v,hv,rfl⟩ := map_eq_ok_iff.mp h
    refine ⟨.stored (.int64 [some (Int64.ofInt v)]),.number v,?_,compare_number order _⟩
    have hstored : (Int64.ofInt v).toInt = v := by
      cases literal with
      | int64 n =>
        cases hv
        rw [Int64.ofInt_toInt]
      | _ => exact absurd hv (invalidFilter_ne_ok _ _)
    exact congrArg (fun n : ℤ => some (TestedType.int64,[some (Datum.number (n : ℚ))])) hstored
  | uint64 =>
    obtain ⟨v,hv,rfl⟩ := map_eq_ok_iff.mp h
    refine ⟨.stored (.uint64 [some (UInt64.ofNat v.toNat)]),.number v,?_,compare_number order _⟩
    have hrange : 0 ≤ v ∧ v < 2 ^ 63 := by
      cases literal with
      | int64 n =>
        unfold LiteralValue.asU64 at hv
        dsimp only at hv
        split_ifs at hv with hsign
        · cases hv
          exact ⟨hsign,n.toInt_lt⟩
        · exact absurd hv (invalidFilter_ne_ok _ _)
      | _ => exact absurd hv (invalidFilter_ne_ok _ _)
    have hsize : v.toNat < UInt64.size := by
      unfold UInt64.size
      omega
    have hstored : ((UInt64.ofNat v.toNat).toNat : ℚ) = v := by
      rw [UInt64.toNat_ofNat_of_lt' hsize]
      exact_mod_cast congrArg (fun n : ℤ => (n : ℚ)) (Int.toNat_of_nonneg hrange.1)
    exact congrArg (fun n : ℚ => some (TestedType.uint64,[some (Datum.number n)])) hstored
  | date32 =>
    obtain ⟨v,hv,rfl⟩ := map_eq_ok_iff.mp h
    refine ⟨.stored (.date32 [some (Int32.ofInt v)]),.instant (v * 86400),?_,compare_instant order _⟩
    have hrange : InSigned 32 v := by
      cases literal with
      | int64 n =>
        obtain ⟨hmem,rfl⟩ := checkedSigned_eq_some.mp (okOr_invalidComparison.mp hv)
        exact hmem
      | utf8 text =>
        obtain ⟨days,-,hdays⟩ := Option.bind_eq_some_iff.mp (okOr_invalidComparison.mp hv)
        obtain ⟨hmem,rfl⟩ := checkedSigned_eq_some.mp hdays
        exact hmem
      | _ => exact absurd hv (invalidFilter_ne_ok _ _)
    have hstored : (Int32.ofInt v).toInt = v := Int32.toInt_ofInt_of_le hrange.1 hrange.2
    exact congrArg (fun n : ℤ => some (TestedType.date32,[some (Datum.instant ((n : ℚ) * 86400))])) hstored
  | date64 =>
    obtain ⟨v,hv,rfl⟩ := map_eq_ok_iff.mp h
    refine ⟨.stored (.date64 [some (Int64.ofInt v)]),.instant (v / 1000),?_,compare_instant order _⟩
    have hrange : InSigned 64 v := by
      cases literal with
      | int64 n =>
        cases hv
        exact ⟨n.le_toInt,n.toInt_lt⟩
      | utf8 text =>
        obtain ⟨days,-,hdays⟩ := Option.bind_eq_some_iff.mp (okOr_invalidComparison.mp hv)
        obtain ⟨hmem,rfl⟩ := checkedSigned_eq_some.mp hdays
        exact hmem
      | _ => exact absurd hv (invalidFilter_ne_ok _ _)
    have hstored : (Int64.ofInt v).toInt = v := Int64.toInt_ofInt_of_le hrange.1 hrange.2
    exact congrArg (fun n : ℤ => some (TestedType.date64,[some (Datum.instant ((n : ℚ) / 1000))])) hstored

variable {order} {host : Host} {executeSql : Query → Result QueryOutput} {tableAlias : Option String} {kernels : Kernels γ}
  {type : TestedType} {left : SqlExpr} {column : String} {subquery : Query} {batches : List RecordBatch}

/-- An equality with the only cell of a subquery has its truth value only where the cell reads exactly. -/
theorem readsExactly_of_preserves (htest : SubqueryTest host executeSql tableAlias type left column subquery batches)
    (hdoubles : ComparesDoubles host.floats order kernels) {cell : Cell} (hcells : batches.flatMap cells = [cell])
    (h : Preserves kernels column type
      (parseFilterWithSubqueries host executeSql tableAlias ((comparison .eq).predicate left subquery))
      ((comparison .eq).truth host.floats order type [cell])) : cell.ReadsExactly host.floats type := by
  have hsuits : cell.Suits type := htest.suits cell (by rw [hcells]; exact List.mem_cons_self)
  obtain ⟨expr,hfilter,heval⟩ := h
  obtain ⟨literal,hliteral⟩ : ∃ literal, scalarLiteralValueFromBatches host.floats batches = .ok literal := by
    obtain ⟨found,hfound,hfilter⟩ := except_bind_eq_ok.mp hfilter
    cases htest.executes.symm.trans hfound
    obtain ⟨literal,hliteral,-⟩ := except_bind_eq_ok.mp hfilter
    exact ⟨literal,hliteral⟩
  cases (parseFilter_comparison htest hliteral).symm.trans hfilter
  rw [scalarLiteralValueFromBatches_iff htest.oneColumn (by rw [hcells]; exact le_rfl),hcells] at hliteral
  by_cases hnull : cell = .null
  · rw [hnull]
    trivial
  · have hne : literal ≠ .null := by
      rintro rfl
      cases cell with
      | null => exact hnull rfl
      | date days | dateTime millis =>
        obtain ⟨date,-,hdate⟩ := map_eq_ok_iff.mp hliteral
        cases hdate
      | _ => cases hliteral
    by_cases hdouble : type = .float64
    · subst hdouble
      cases cell with
      | unread => cases hliteral
      | date days | dateTime millis => exact hsuits.elim
      | _ => trivial
    · obtain ⟨empty,hempty⟩ := exists_empty_column (γ := γ) type
      have hread := heval _ _ (holdsColumn_single hempty)
      unfold evaluateFilter at hread
      have hnull' : (⟨column,.eq,literal⟩ : ComparisonExpr).value ≠ .null := hne
      rw [evaluateBatchComparison_typed hdoubles (holdsColumn_single hempty) hnull'] at hread
      obtain ⟨d,hd,-⟩ := map_eq_ok_iff.mp hread
      obtain ⟨stored,x,hstored,hx⟩ := exists_column_of_typed order hdouble hd
      have hrow := heval _ _ (holdsColumn_single hstored)
      unfold evaluateFilter at hrow
      rw [evaluateBatchComparison_typed hdoubles (holdsColumn_single hstored) hnull'] at hrow
      rw [hd] at hrow
      have hlists : [x.compare order .eq d] = [(cell.datum host.floats type).bind (x.compare order .eq)] :=
        Except.ok.inj hrow
      have htruth := (List.cons.inj hlists).1.symm.trans ((hx d).mpr rfl)
      obtain ⟨e,he,hequal⟩ := Option.bind_eq_some_iff.mp htruth
      rw [(hx e).mp hequal] at he
      exact (typedLiteral_iff hnull hsuits hliteral).mp ⟨d,hd,he⟩

end Necessary

section Examples

def doubleKernels {γ : Type*} (floats : Floats) (order : γ → String → Option Ordering) : Kernels γ where
  float64Comparison values comparison :=
    (literalAsDouble floats comparison.column comparison.value).map fun bound => values.map fun value =>
      (order value bound).map (orderingHolds comparison.op)
  columnComparison _ _ _ _ := .error .panicked
  like _ _ := .error .panicked
  isNull _ _ _ := .error .panicked

def dateTimeEngine (millis : Int64) (_ : Query) : Result QueryOutput := .ok (.scan [⟨1,[.date64 [some millis]]⟩])

theorem subqueryTest_dateTime (millis : Int64) : SubqueryTest textHost (dateTimeEngine millis) none .date64
    (.identifier "t") "t" "SELECT MAX(t) FROM u" [⟨1,[.date64 [some millis]]⟩] where
  executes := rfl
  oneColumn := List.forall_mem_singleton.mpr ⟨_,rfl,rfl⟩
  column := rfl
  suits := List.forall_mem_singleton.mpr trivial

end Examples
end Dodam.Sql
