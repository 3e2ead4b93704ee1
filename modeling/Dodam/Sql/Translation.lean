import Dodam.Sql.FilterMeaning

/-! # Translating a predicate with subqueries

What the translator does with each form of predicate, and which operands it passes over: leaves
that need the expression evaluator.
-/
namespace Dodam.Sql
open Foundation Execution

section Translation
variable {host : Host} {executeSql : Query → Result QueryOutput} {tableAlias : Option String}

/-- The translator passes over the predicate, or over an operand in it: a leaf that needs the expression evaluator, other
than a comparison with a scalar subquery on its right. -/
def dropsOperand (host : Host) : SqlExpr → Bool
  | .binaryOp left op right =>
    if op = .and ∨ op = .or then dropsOperand host left || dropsOperand host right
    else
      match op.comparison,right with
      | some _,.subquery _ => false
      | _,_ => predicateRequiresExpressionPath host (.binaryOp left op right)
  | .unaryOp op expr => op = .not && dropsOperand host expr
  | .nested expr => dropsOperand host expr
  | .isNull _ | .isNotNull _ | .existsSubquery _ _ | .inSubquery _ _ _ => false
  | expr => predicateRequiresExpressionPath host expr

/-- The operands of the connectives of a predicate, with the predicate itself. -/
def operands : SqlExpr → List SqlExpr
  | .binaryOp left op right =>
    .binaryOp left op right :: (if op = .and ∨ op = .or then operands left ++ operands right else [])
  | .unaryOp op expr => .unaryOp op expr :: (if op = .not then operands expr else [])
  | .nested expr => .nested expr :: operands expr
  | expr => [expr]

/-- What the translator does with each form of predicate. -/
inductive Translates (host : Host) (executeSql : Query → Result QueryOutput) (tableAlias : Option String) :
    SqlExpr → Option Expr → Prop
  | existence {subquery : Query} {negated : Bool} {filter : Option Expr} :
      existsFilter executeSql subquery negated = .ok filter →
      Translates host executeSql tableAlias (.existsSubquery subquery negated) filter
  | inSubquery {expr : SqlExpr} {subquery : Query} {negated : Bool} {filter : Option Expr} :
      inSubqueryFilter host executeSql tableAlias expr subquery negated = .ok filter →
      Translates host executeSql tableAlias (.inSubquery expr subquery negated) filter
  | inList {expr : SqlExpr} {list : List SqlExpr} {negated : Bool} {filter : Option Expr} :
      inListLeafFilter host tableAlias expr list negated = .ok filter →
      Translates host executeSql tableAlias (.inList expr list negated) filter
  | isNull {expr : SqlExpr} {filter : Option Expr} : nullTestFilter host tableAlias expr false = .ok filter →
      Translates host executeSql tableAlias (.isNull expr) filter
  | isNotNull {expr : SqlExpr} {filter : Option Expr} : nullTestFilter host tableAlias expr true = .ok filter →
      Translates host executeSql tableAlias (.isNotNull expr) filter
  | scalarSubquery {left : SqlExpr} {op : BinaryOperator} {test : ComparisonOp} {subquery : Query} {filter : Option Expr} :
      op.comparison = some test → scalarSubqueryFilter host executeSql tableAlias left test subquery = .ok filter →
      Translates host executeSql tableAlias (.binaryOp left op (.subquery subquery)) filter
  | leaf {expr : SqlExpr} {filter : Option Expr} : dropsOperand host expr = predicateRequiresExpressionPath host expr →
      operands expr = [expr] → parseFilterWithSubqueries host executeSql tableAlias expr = leafFilter host tableAlias expr →
      leafFilter host tableAlias expr = .ok filter →
      Translates host executeSql tableAlias expr filter
  | not {expr : SqlExpr} {filter : Option Expr} : Translates host executeSql tableAlias expr filter →
      Translates host executeSql tableAlias (.unaryOp .not expr) (filter.map .not)
  | and {left right : SqlExpr} {a b : Option Expr} : Translates host executeSql tableAlias left a →
      Translates host executeSql tableAlias right b →
      Translates host executeSql tableAlias (.binaryOp left .and right) (combineOperands .and a b)
  | or {left right : SqlExpr} {a b : Option Expr} : Translates host executeSql tableAlias left a →
      Translates host executeSql tableAlias right b →
      Translates host executeSql tableAlias (.binaryOp left .or right) (combineOperands .or a b)
  | nested {expr : SqlExpr} {filter : Option Expr} : Translates host executeSql tableAlias expr filter →
      Translates host executeSql tableAlias (.nested expr) filter

/-- An operator that is no connective and does not compare with a subquery is a leaf. -/
theorem leaf_binaryOp {left right : SqlExpr} {op : BinaryOperator} (hand : op ≠ .and) (hor : op ≠ .or)
    (hright : ∀ test subquery, op.comparison = some test → right ≠ .subquery subquery) :
    dropsOperand host (.binaryOp left op right) = predicateRequiresExpressionPath host (.binaryOp left op right) ∧
      operands (.binaryOp left op right) = [.binaryOp left op right] ∧
      parseFilterWithSubqueries host executeSql tableAlias (.binaryOp left op right) =
        leafFilter host tableAlias (.binaryOp left op right) := by
  have hneither := not_or.mpr ⟨hand,hor⟩
  refine ⟨?_,?_,?_⟩
  · rw [dropsOperand,if_neg hneither]
    exact hright
  · rw [operands,if_neg hneither]
  · rw [parseFilterWithSubqueries]
    exacts [hand,hor,hright]

theorem parseFilterWithSubqueries_translates : ∀ {expr : SqlExpr} {filter : Option Expr},
    parseFilterWithSubqueries host executeSql tableAlias expr = .ok filter →
      Translates host executeSql tableAlias expr filter
  | .existsSubquery _ _,_,h => .existence h
  | .inSubquery _ _ _,_,h => .inSubquery h
  | .inList _ _ _,_,h => .inList h
  | .isNull _,_,h => .isNull h
  | .isNotNull _,_,h => .isNotNull h
  | .unaryOp op expr,filter,h => by
    cases op
    case not =>
      obtain ⟨inner,hinner,rfl⟩ := map_eq_ok_iff.mp h
      exact .not (parseFilterWithSubqueries_translates hinner)
    all_goals exact .leaf rfl rfl rfl h
  | .binaryOp left op right,filter,h => by
    by_cases hand : op = .and
    · subst hand
      obtain ⟨a,ha,h⟩ := bind_eq_ok_iff.mp h
      obtain ⟨b,hb,h⟩ := bind_eq_ok_iff.mp h
      cases h
      exact .and (parseFilterWithSubqueries_translates ha) (parseFilterWithSubqueries_translates hb)
    by_cases hor : op = .or
    · subst hor
      obtain ⟨a,ha,h⟩ := bind_eq_ok_iff.mp h
      obtain ⟨b,hb,h⟩ := bind_eq_ok_iff.mp h
      cases h
      exact .or (parseFilterWithSubqueries_translates ha) (parseFilterWithSubqueries_translates hb)
    by_cases hright : ∃ test subquery, op.comparison = some test ∧ right = .subquery subquery
    · obtain ⟨test,subquery,hop,rfl⟩ := hright
      cases op <;> cases hop <;> exact .scalarSubquery rfl h
    · obtain ⟨hdrops,hoperands,hparse⟩ := leaf_binaryOp hand hor fun test subquery hop hright' =>
        hright ⟨test,subquery,hop,hright'⟩
      exact .leaf hdrops hoperands hparse (hparse.symm.trans h)
  | .nested expr,filter,h => by
    rw [parseFilterWithSubqueries] at h
    exact .nested (parseFilterWithSubqueries_translates h)
  | .identifier _,_,h | .compoundIdentifier _,_,h | .value _,_,h | .typedString _ _,_,h | .interval _ _,_,h
  | .subquery _,_,h | .between _ _ _ _,_,h | .like _ _ _ _ _ _,_,h | .function _ _,_,h | .cast _ _,_,h
  | .substring _ _ _,_,h | .other _,_,h => .leaf rfl rfl rfl h

variable {expr : SqlExpr} {filter : Option Expr}

theorem Translates.parse (h : Translates host executeSql tableAlias expr filter) :
    parseFilterWithSubqueries host executeSql tableAlias expr = .ok filter := by
  induction h with
  | existence h | inSubquery h | inList h | isNull h | isNotNull h => exact h
  | @scalarSubquery left op test subquery filter hop h =>
    cases op
    case eq | notEq | lt | ltEq | gt | gtEq =>
      cases hop
      exact h
    all_goals cases hop
  | leaf _ _ hparse h => exact hparse.trans h
  | not _ ih =>
    rw [parseFilterWithSubqueries,ih]
    rfl
  | and _ _ ihl ihr | or _ _ ihl ihr =>
    rw [parseFilterWithSubqueries,ihl,ihr]
    rfl
  | nested _ ih =>
    rw [parseFilterWithSubqueries]
    exact ih

theorem leafFilter_eq_none (h : leafFilter host tableAlias expr = .ok filter) :
    filter = none ↔ predicateRequiresExpressionPath host expr = true := by
  unfold leafFilter at h
  split_ifs at h with hrequires
  · cases h
    exact iff_of_true rfl hrequires
  · obtain ⟨f,hf,rfl⟩ := map_eq_ok_iff.mp h
    exact iff_of_false (by simp) hrequires

theorem inListLeafFilter_eq_none {list : List SqlExpr} {negated : Bool}
    (h : inListLeafFilter host tableAlias expr list negated = .ok filter) :
    filter = none ↔ predicateRequiresExpressionPath host (.inList expr list negated) = true := by
  unfold inListLeafFilter at h
  split_ifs at h with hrequires
  · cases h
    exact iff_of_true rfl hrequires
  · refine iff_of_false ?_ hrequires
    rintro rfl
    split at h
    all_goals
      obtain ⟨_,-,he⟩ := map_eq_ok_iff.mp h
      cases he

theorem combineOperands_isSome {connective : Expr → Expr → Expr} {a b : Option Expr} (h : a.isSome = true ∨ b.isSome = true) :
    (combineOperands connective a b).isSome = true := by
  cases a <;> cases b <;> simp_all [combineOperands]

theorem dropsOperand_connective {left right : SqlExpr} {op : BinaryOperator} (hop : op = .and ∨ op = .or) :
    dropsOperand host (.binaryOp left op right) = (dropsOperand host left || dropsOperand host right) := by
  rcases hop with rfl | rfl <;> rfl

theorem Translates.isSome (h : Translates host executeSql tableAlias expr filter)
    (hdrops : dropsOperand host expr = false) : filter.isSome = true := by
  induction h with
  | existence h =>
    obtain ⟨batches,-,rfl⟩ := map_eq_ok_iff.mp h
    rfl
  | inSubquery h =>
    obtain ⟨batches,-,h⟩ := bind_eq_ok_iff.mp h
    obtain ⟨values,-,h⟩ := bind_eq_ok_iff.mp h
    split at h
    · cases h
      rfl
    · obtain ⟨column,-,h⟩ := bind_eq_ok_iff.mp h
      cases h
      rfl
  | inList h =>
    have hnone := mt (inListLeafFilter_eq_none h).mp (Bool.eq_false_iff.mp hdrops)
    exact Option.isSome_iff_ne_none.mpr hnone
  | isNull h | isNotNull h =>
    unfold nullTestFilter at h
    split at h
    · cases h
      rfl
    · obtain ⟨f,-,rfl⟩ := map_eq_ok_iff.mp h
      rfl
  | scalarSubquery _ h =>
    obtain ⟨batches,-,h⟩ := bind_eq_ok_iff.mp h
    obtain ⟨value,-,h⟩ := bind_eq_ok_iff.mp h
    split at h
    · obtain ⟨holds,-,rfl⟩ := map_eq_ok_iff.mp h
      rfl
    · obtain ⟨column,-,h⟩ := bind_eq_ok_iff.mp h
      cases h
      rfl
  | leaf hleaf _ _ h =>
    have hnone := mt (leafFilter_eq_none h).mp (Bool.eq_false_iff.mp (hleaf ▸ hdrops))
    exact Option.isSome_iff_ne_none.mpr hnone
  | not _ ih =>
    rw [Option.isSome_map]
    exact ih hdrops
  | and _ _ ihl ihr =>
    rw [dropsOperand_connective (Or.inl rfl),Bool.or_eq_false_iff] at hdrops
    exact combineOperands_isSome (Or.inl (ihl hdrops.1))
  | or _ _ ihl ihr =>
    rw [dropsOperand_connective (Or.inr rfl),Bool.or_eq_false_iff] at hdrops
    exact combineOperands_isSome (Or.inl (ihl hdrops.1))
  | nested _ ih =>
    rw [dropsOperand] at hdrops
    exact ih hdrops

theorem dropsOperand_operands : ∀ {expr : SqlExpr}, dropsOperand host expr = false → ∀ operand ∈ operands expr,
    dropsOperand host operand = false
  | .binaryOp left op right,hdrops,operand,hoperand => by
    rw [operands] at hoperand
    rcases List.mem_cons.mp hoperand with rfl | hoperand
    · exact hdrops
    · split_ifs at hoperand with hop
      · rw [dropsOperand_connective hop,Bool.or_eq_false_iff] at hdrops
        rcases List.mem_append.mp hoperand with hleft | hright
        · exact dropsOperand_operands hdrops.1 operand hleft
        · exact dropsOperand_operands hdrops.2 operand hright
      · exact absurd hoperand List.not_mem_nil
  | .unaryOp op expr,hdrops,operand,hoperand => by
    rw [operands] at hoperand
    rcases List.mem_cons.mp hoperand with rfl | hinner
    · exact hdrops
    · split_ifs at hinner with hop
      · exact dropsOperand_operands (by simpa [dropsOperand,hop] using hdrops) operand hinner
      · exact absurd hinner List.not_mem_nil
  | .nested expr,hdrops,operand,hoperand => by
    rw [operands] at hoperand
    rcases List.mem_cons.mp hoperand with rfl | hoperand
    · exact hdrops
    · rw [dropsOperand] at hdrops
      exact dropsOperand_operands hdrops operand hoperand
  | .identifier _,hdrops,_,ho | .compoundIdentifier _,hdrops,_,ho | .value _,hdrops,_,ho | .typedString _ _,hdrops,_,ho
  | .interval _ _,hdrops,_,ho | .subquery _,hdrops,_,ho | .between _ _ _ _,hdrops,_,ho | .like _ _ _ _ _ _,hdrops,_,ho
  | .function _ _,hdrops,_,ho | .cast _ _,hdrops,_,ho | .substring _ _ _,hdrops,_,ho | .other _,hdrops,_,ho
  | .isNull _,hdrops,_,ho | .isNotNull _,hdrops,_,ho | .inList _ _ _,hdrops,_,ho | .inSubquery _ _ _,hdrops,_,ho
  | .existsSubquery _ _,hdrops,_,ho => by
    rw [List.mem_singleton.mp ho]
    exact hdrops

theorem Translates.dropped (h : Translates host executeSql tableAlias expr filter)
    (hdrops : dropsOperand host expr = true) :
    ∃ operand ∈ operands expr, Translates host executeSql tableAlias operand none := by
  induction h with
  | existence | inSubquery | isNull | isNotNull => cases hdrops
  | inList h =>
    have hnone := (inListLeafFilter_eq_none h).mpr hdrops
    exact ⟨_,List.mem_singleton_self _,.inList (hnone ▸ h)⟩
  | @scalarSubquery left op _ _ _ hop _ =>
    cases op
    case eq | notEq | lt | ltEq | gt | gtEq => cases hdrops
    all_goals cases hop
  | leaf hleaf hoperands hparse h =>
    have hnone := (leafFilter_eq_none h).mpr (hleaf ▸ hdrops)
    rw [hoperands]
    exact ⟨_,List.mem_singleton_self _,.leaf hleaf hoperands hparse (hnone ▸ h)⟩
  | not _ ih =>
    obtain ⟨operand,hoperand,hnone⟩ := ih (by simpa [dropsOperand] using hdrops)
    exact ⟨operand,List.mem_cons_of_mem _ hoperand,hnone⟩
  | and _ _ ihl ihr | or _ _ ihl ihr =>
    rw [dropsOperand_connective (by simp),Bool.or_eq_true] at hdrops
    rcases hdrops with hl | hr
    · obtain ⟨operand,hoperand,hnone⟩ := ihl hl
      exact ⟨operand,List.mem_cons_of_mem _ (List.mem_append_left _ hoperand),hnone⟩
    · obtain ⟨operand,hoperand,hnone⟩ := ihr hr
      exact ⟨operand,List.mem_cons_of_mem _ (List.mem_append_right _ hoperand),hnone⟩
  | nested _ ih =>
    rw [dropsOperand] at hdrops
    obtain ⟨operand,hoperand,hnone⟩ := ih hdrops
    exact ⟨operand,List.mem_cons_of_mem _ hoperand,hnone⟩

theorem dropsOperand_of_not_requires : ∀ {expr : SqlExpr}, predicateRequiresExpressionPath host expr = false →
    dropsOperand host expr = false
  | .binaryOp left op right,h => by
    by_cases hconnective : op = .and ∨ op = .or
    · rw [predicateRequiresExpressionPath,if_pos hconnective,Bool.or_eq_false_iff] at h
      rw [dropsOperand_connective hconnective,dropsOperand_of_not_requires h.1,dropsOperand_of_not_requires h.2]
      rfl
    · by_cases hright : ∃ test subquery, op.comparison = some test ∧ right = .subquery subquery
      · obtain ⟨test,subquery,hop,rfl⟩ := hright
        rw [dropsOperand,if_neg hconnective]
        exacts [test,hop]
      · rw [dropsOperand,if_neg hconnective]
        exacts [h,fun test subquery hop hright' => hright ⟨test,subquery,hop,hright'⟩]
  | .unaryOp op expr,h => by
    rw [predicateRequiresExpressionPath,Bool.and_eq_false_iff] at h
    rw [dropsOperand,Bool.and_eq_false_iff]
    exact h.imp_right fun h => dropsOperand_of_not_requires h
  | .nested expr,h => by
    rw [predicateRequiresExpressionPath] at h
    rw [dropsOperand]
    exact dropsOperand_of_not_requires h
  | .isNull _,_ | .isNotNull _,_ | .existsSubquery _ _,_ | .inSubquery _ _ _,_ => rfl
  | .identifier _,h | .compoundIdentifier _,h | .value _,h | .typedString _ _,h | .interval _ _,h | .subquery _,h
  | .between _ _ _ _,h | .like _ _ _ _ _ _,h | .function _ _,h | .cast _ _,h | .substring _ _ _,h | .other _,h
  | .inList _ _ _,h => h

end Translation

section Meaning
variable {host : Host} {executeSql : Query → Result QueryOutput} {ρ : Type*} {M : Meaning host.floats ρ}
  {tableAlias : Option String} {row : ρ}

variable {subquery : Query} {expr : SqlExpr} {filter : Expr}

theorem scalarSubqueryValue_eq {batches : List RecordBatch} {value : LiteralValue}
    (hbatches : subqueryBatches executeSql subquery = .ok batches)
    (hvalue : scalarLiteralValueFromBatches host.floats batches = .ok value) :
    scalarSubqueryValue host executeSql M subquery = M.literal value := by
  obtain ⟨values,hvalues,hvalue⟩ := bind_eq_ok_iff.mp hvalue
  have hlist : subqueryValues host executeSql subquery = values := by
    rw [subqueryValues,hbatches]
    exact congrArg (fun x : Result (List LiteralValue) => x.toOption.getD []) hvalues
  rw [scalarSubqueryValue,hlist]
  match values,hvalue with
  | [],hvalue =>
    cases hvalue
    exact ((M.literal_eq_none .null).mpr rfl).symm
  | [single],hvalue =>
    cases hvalue
    rfl

theorem inSubqueryFilter_meaning {negated : Bool}
    (h : inSubqueryFilter host executeSql tableAlias expr subquery negated = .ok (some filter))
    (hlookups : ExactLookups host executeSql (.inSubquery expr subquery negated)) :
    M.filter row filter = truth host executeSql M (sqlColumnName host tableAlias) row (.inSubquery expr subquery negated) := by
  obtain ⟨batches,hbatches,h⟩ := bind_eq_ok_iff.mp h
  obtain ⟨values,hvalues,h⟩ := bind_eq_ok_iff.mp h
  have hlist : subqueryValues host executeSql subquery = values := by
    rw [subqueryValues,hbatches]
    exact congrArg (fun x : Result (List LiteralValue) => x.toOption.getD []) hvalues
  rw [truth,hlist]
  cases hliteral : sqlLiteralValue host expr with
  | ok value =>
    rw [hliteral] at h
    cases h
    rw [scalarValue_of_literal hliteral]
    exact evaluateLiteralInValues_eq (hlist ▸ hlookups value hliteral)
  | error _ =>
    rw [hliteral] at h
    obtain ⟨column,hcolumn,h⟩ := bind_eq_ok_iff.mp h
    cases h
    rw [Meaning.filter_inList,scalarValue_of_column hcolumn]

theorem scalarSubqueryFilter_meaning {left : SqlExpr} {op : ComparisonOp}
    (h : scalarSubqueryFilter host executeSql tableAlias left op subquery = .ok (some filter)) :
    M.filter row filter = M.compare op (scalarValue host executeSql M (sqlColumnName host tableAlias) row left)
      (scalarSubqueryValue host executeSql M subquery) := by
  obtain ⟨batches,hbatches,h⟩ := bind_eq_ok_iff.mp h
  obtain ⟨value,hvalue,h⟩ := bind_eq_ok_iff.mp h
  rw [scalarSubqueryValue_eq hbatches hvalue]
  cases hliteral : sqlLiteralValue host left with
  | ok literal =>
    rw [hliteral] at h
    obtain ⟨holds,hholds,he⟩ := map_eq_ok_iff.mp h
    cases he
    rw [scalarValue_of_literal hliteral]
    exact (Meaning.compare_literals hholds).symm
  | error _ =>
    rw [hliteral] at h
    obtain ⟨column,hcolumn,h⟩ := bind_eq_ok_iff.mp h
    cases h
    rw [scalarValue_of_column hcolumn]
    rfl

theorem nullTestFilter_meaning {negated : Bool}
    (h : nullTestFilter host tableAlias expr negated = .ok (some filter)) : M.filter row filter =
      some ((scalarValue host executeSql M (sqlColumnName host tableAlias) row expr).isNone != negated) := by
  unfold nullTestFilter at h
  cases hliteral : sqlLiteralValue host expr with
  | ok value =>
    rw [hliteral] at h
    cases h
    have hnull : (M.literal value).isNone = decide (value = .null) := by
      rw [Bool.eq_iff_iff,Option.isNone_iff_eq_none,M.literal_eq_none,decide_eq_true_iff]
    rw [scalarValue_of_literal hliteral,hnull,Meaning.filter]
    cases negated <;> simp
  | error _ =>
    rw [hliteral] at h
    obtain ⟨f,hf,he⟩ := map_eq_ok_iff.mp h
    cases he
    cases negated with
    | false | true =>
      obtain ⟨column,hcolumn,hf⟩ := bind_eq_ok_iff.mp hf
      cases hf
      rw [Meaning.filter,scalarValue_of_column hcolumn]

theorem combineOperands_some {connective : Expr → Expr → Expr} {a b : Option Expr}
    (ha : a.isSome = true) (hb : b.isSome = true) (h : combineOperands connective a b = some filter) :
    ∃ left right, a = some left ∧ b = some right ∧ filter = connective left right := by
  obtain ⟨left,rfl⟩ := Option.isSome_iff_exists.mp ha
  obtain ⟨right,rfl⟩ := Option.isSome_iff_exists.mp hb
  exact ⟨left,right,rfl,rfl,(Option.some.inj h).symm⟩

/-- A translation in which nothing is dropped has the truth value of the predicate. -/
theorem Translates.meaning {filter : Option Expr} (h : Translates host executeSql tableAlias expr filter)
    (hdrops : dropsOperand host expr = false) (hlookups : ExactLookups host executeSql expr) {f : Expr} (hf : filter = some f) :
    M.filter row f = truth host executeSql M (sqlColumnName host tableAlias) row expr := by
  induction h generalizing f with
  | @existence subquery negated filter h =>
    obtain ⟨batches,hbatches,rfl⟩ := map_eq_ok_iff.mp h
    cases hf
    have hrows : subqueryHasRows executeSql subquery = batches.any fun batch => 0 < batch.numRows := by
      rw [subqueryHasRows,hbatches]
      rfl
    rw [truth,hrows,Meaning.filter]
    cases negated <;> simp
  | inSubquery h => exact inSubqueryFilter_meaning (hf ▸ h) hlookups
  | @inList expr list negated filter h =>
    unfold inListLeafFilter at h
    split_ifs at h
    · cases h
      cases hf
    · cases hliteral : sqlLiteralValue host expr with
      | ok value =>
        rw [hliteral] at h
        obtain ⟨holds,hholds,rfl⟩ := map_eq_ok_iff.mp h
        cases hf
        rw [truth,scalarValue_of_literal hliteral]
        exact evaluateLiteralInList_eq hholds fun he => hlookups (he ▸ hliteral)
      | error _ =>
        rw [hliteral] at h
        obtain ⟨g,hg,rfl⟩ := map_eq_ok_iff.mp h
        cases hf
        exact sqlExprToFilterExpr_meaning hg hlookups
  | isNull h =>
    rw [nullTestFilter_meaning (hf ▸ h),Bool.bne_false]
    rfl
  | isNotNull h =>
    rw [nullTestFilter_meaning (hf ▸ h),Bool.bne_true,Option.not_isNone]
    rfl
  | @scalarSubquery left op test subquery filter hop h =>
    rw [scalarSubqueryFilter_meaning (hf ▸ h)]
    cases op
    case eq | notEq | lt | ltEq | gt | gtEq =>
      cases hop
      rfl
    all_goals cases hop
  | leaf _ _ _ h =>
    unfold leafFilter at h
    split_ifs at h
    · cases h
      cases hf
    · obtain ⟨g,hg,rfl⟩ := map_eq_ok_iff.mp h
      cases hf
      exact sqlExprToFilterExpr_meaning hg hlookups
  | not h ih =>
    obtain ⟨inner,hinner,rfl⟩ := Option.map_eq_some_iff.mp hf
    rw [Meaning.filter,ih hdrops (hlookups rfl) hinner]
    rfl
  | and hleft hright ihl ihr =>
    rw [dropsOperand_connective (Or.inl rfl),Bool.or_eq_false_iff] at hdrops
    obtain ⟨a,b,ha,hb,rfl⟩ := combineOperands_some (hleft.isSome hdrops.1) (hright.isSome hdrops.2) hf
    have hparts := hlookups (Or.inl rfl)
    rw [Meaning.filter,ihl hdrops.1 hparts.1 ha,ihr hdrops.2 hparts.2 hb]
    rfl
  | or hleft hright ihl ihr =>
    rw [dropsOperand_connective (Or.inr rfl),Bool.or_eq_false_iff] at hdrops
    obtain ⟨a,b,ha,hb,rfl⟩ := combineOperands_some (hleft.isSome hdrops.1) (hright.isSome hdrops.2) hf
    have hparts := hlookups (Or.inr rfl)
    rw [Meaning.filter,ihl hdrops.1 hparts.1 ha,ihr hdrops.2 hparts.2 hb]
    rfl
  | nested _ ih =>
    rw [dropsOperand] at hdrops
    rw [truth]
    exact ih hdrops hlookups hf

end Meaning
end Dodam.Sql
