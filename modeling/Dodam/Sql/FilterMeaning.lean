import Dodam.Sql.Meaning

/-! # Filters mean their predicates

A filter that `sql_expr_to_filter_expr` reads from a predicate has the truth
value of the predicate on every row, where a NULL literal is not looked up in a
list without NULLs.
-/
namespace Dodam.Sql
open Foundation Execution Meaning

theorem unsupportedSql_ne_ok {α : Type*} (message : String) (a : α) : (unsupportedSql message : Result α) ≠ .ok a := by
  rintro ⟨⟩

section Scalars
variable {host : Host} {executeSql : Query → Result QueryOutput} {ρ : Type*} {M : Meaning host.floats ρ}
  {resolve : SqlExpr → Result String} {row : ρ}

theorem scalarValue_of_literal {expr : SqlExpr} {literal : LiteralValue} (h : sqlLiteralValue host expr = .ok literal) :
    scalarValue host executeSql M resolve row expr = M.literal literal := by
  cases expr
  case nested | subquery | function | identifier | compoundIdentifier =>
    exact absurd h (unsupportedSql_ne_ok _ _)
  all_goals simp only [scalarValue,h]

theorem scalarValue_of_literals {list : List SqlExpr} {literals : List LiteralValue}
    (h : list.mapM (sqlLiteralValue host) = .ok literals) :
    list.map (scalarValue host executeSql M resolve row) = literals.map M.literal := by
  induction mapM_ok_iff.mp h with
  | nil => rfl
  | cons hliteral hlist ih => rw [List.map_cons,List.map_cons,scalarValue_of_literal hliteral,ih (mapM_ok_iff.mpr hlist)]

theorem scalarValue_of_column {tableAlias : Option String} {column : String} :
    ∀ {expr : SqlExpr}, sqlFilterColumn host tableAlias expr = .ok column →
      scalarValue host executeSql M (sqlColumnName host tableAlias) row expr = M.cell column row
  | .identifier value,h => by
    have hname : sqlColumnName host tableAlias (.identifier value) = .ok column := h
    simp only [scalarValue,hname]
  | .compoundIdentifier parts,h => by
    have hname : sqlColumnName host tableAlias (.compoundIdentifier parts) = .ok column := h
    simp only [scalarValue,hname]
  | .nested expr,h => by
    rw [scalarValue]
    exact scalarValue_of_column h

end Scalars

section Lists
variable {host : Host} {list : List SqlExpr}

theorem nonNullLiteralValues_ok {values : List LiteralValue} (h : nonNullLiteralValues host list = .ok values) :
    ∃ literals, list.mapM (sqlLiteralValue host) = .ok literals ∧ values = nonNullSubqueryValues literals := by
  obtain ⟨literals,hliterals,rfl⟩ := map_eq_ok_iff.mp h
  exact ⟨literals,hliterals,rfl⟩

theorem literalListContainsNull_eq {literals : List LiteralValue} (h : list.mapM (sqlLiteralValue host) = .ok literals) :
    literalListContainsNull host list = .ok (subqueryValuesContainNull literals) := by
  induction mapM_ok_iff.mp h with
  | nil => rfl
  | @cons expr literal list literals hliteral hlist ih =>
    rw [literalListContainsNull,hliteral,except_bind_ok,ih (mapM_ok_iff.mpr hlist)]
    by_cases hnull : literal = .null
    · rw [if_pos hnull]
      exact congrArg Except.ok (by simp [subqueryValuesContainNull,hnull])
    · rw [if_neg hnull]
      exact congrArg Except.ok (by simp [subqueryValuesContainNull,hnull])

theorem compareLiteralValues_eq_false {floats : Floats} {l r : LiteralValue} {op : ComparisonOp} {holds : Option Bool}
    (hl : l ≠ .null) (hr : r ≠ .null) (h : compareLiteralValues floats l op r = .ok holds) (htrue : holds ≠ some true) :
    holds = some false := by
  unfold compareLiteralValues at h
  rw [if_neg (not_or.mpr ⟨hl,hr⟩)] at h
  cases ho : literalOrdering floats l r with
  | none =>
    rw [ho] at h
    exact absurd h (invalidFilter_ne_ok _ _)
  | some ordering =>
    rw [ho] at h
    cases h
    rw [Ne,Option.some.injEq,Bool.not_eq_true] at htrue
    rw [htrue]

section Lookup
variable {ρ : Type*} {M : Meaning host.floats ρ} {value : LiteralValue} {negated : Bool} {holds : Option Bool}

theorem evaluateLiteralInListFrom_eq {executeSql : Query → Result QueryOutput} {resolve : SqlExpr → Result String}
    {row : ρ} (hvalue : value ≠ .null) {hasNull : Bool}
    (h : evaluateLiteralInListFrom host value negated hasNull list = .ok holds) :
    holds = negateIf negated ((list.map (scalarValue host executeSql M resolve row)).foldl
      (fun found y => orKleene found (M.compare .eq (M.literal value) y)) (if hasNull then none else some false)) := by
  induction list generalizing hasNull with
  | nil =>
    cases h
    cases hasNull <;> cases negated <;> rfl
  | cons candidate list ih =>
    rw [evaluateLiteralInListFrom] at h
    obtain ⟨literal,hliteral,h⟩ := bind_eq_ok_iff.mp h
    rw [List.map_cons,List.foldl_cons,scalarValue_of_literal hliteral]
    by_cases hnull : literal = .null
    · rw [if_pos hnull] at h
      rw [ih h,(M.literal_eq_none literal).mpr hnull,compare_none_right]
      cases hasNull <;> rfl
    · rw [if_neg hnull] at h
      obtain ⟨equal,hequal,h⟩ := bind_eq_ok_iff.mp h
      rw [compare_literals hequal]
      by_cases htrue : equal = some true
      · rw [if_pos htrue] at h
        cases h
        rw [foldl_orKleene_eq_true.mpr (Or.inl (orKleene_eq_true.mpr (Or.inr htrue)))]
        cases negated <;> rfl
      · rw [if_neg htrue] at h
        rw [ih h,compareLiteralValues_eq_false hvalue hnull hequal htrue]
        cases hasNull <;> rfl

theorem evaluateLiteralInListFrom_null {hasNull : Bool}
    (h : evaluateLiteralInListFrom host .null negated hasNull list = .ok holds)
    (hnull : hasNull = true ∨ ∃ item ∈ list, sqlLiteralValue host item = .ok .null) : holds = none := by
  induction list generalizing hasNull with
  | nil =>
    rcases hnull with rfl | ⟨item,hitem,-⟩
    · cases h
      rfl
    · exact absurd hitem List.not_mem_nil
  | cons candidate list ih =>
    rw [evaluateLiteralInListFrom] at h
    obtain ⟨literal,hliteral,h⟩ := bind_eq_ok_iff.mp h
    by_cases hliteralNull : literal = .null
    · rw [if_pos hliteralNull] at h
      exact ih h (Or.inl rfl)
    · rw [if_neg hliteralNull] at h
      obtain ⟨equal,hequal,h⟩ := bind_eq_ok_iff.mp h
      have hunknown : equal = none := by
        rw [compareLiteralValues,if_pos (Or.inl rfl)] at hequal
        exact (Except.ok.inj hequal).symm
      rw [if_neg (by simp [hunknown])] at h
      refine ih h (hnull.imp_right ?_)
      rintro ⟨item,hitem,he⟩
      rcases List.mem_cons.mp hitem with rfl | hitem
      · exact absurd (Except.ok.inj (hliteral.symm.trans he)) hliteralNull
      · exact ⟨item,hitem,he⟩

theorem membership_null {y : Option M.Val} {ys : List (Option M.Val)} : M.membership none (y :: ys) = none :=
  truth_ext
    (iff_of_false (fun h => by obtain ⟨_,-,h⟩ := membership_eq_true.mp h; cases h) (by simp))
    (iff_of_false (fun h => by cases membership_eq_false.mp h y List.mem_cons_self) (by simp))

theorem evaluateLiteralInList_eq {executeSql : Query → Result QueryOutput} {resolve : SqlExpr → Result String} {row : ρ}
    (h : evaluateLiteralInList host value list negated = .ok holds)
    (hnull : value = .null → list = [] ∨ ∃ item ∈ list, sqlLiteralValue host item = .ok .null) :
    holds = negateIf negated (M.membership (M.literal value) (list.map (scalarValue host executeSql M resolve row))) := by
  by_cases hvalue : value = .null
  · rw [(M.literal_eq_none value).mpr hvalue]
    rw [hvalue] at h
    rcases hnull hvalue with rfl | hitem
    · cases h
      cases negated <;> rfl
    · rw [evaluateLiteralInListFrom_null h (Or.inr hitem)]
      obtain ⟨item,hmem,-⟩ := hitem
      cases list with
      | nil => exact absurd hmem List.not_mem_nil
      | cons first rest =>
        rw [List.map_cons,membership_null]
        cases negated <;> rfl
  · exact evaluateLiteralInListFrom_eq hvalue h

/-- A literal can be looked up in a list: NULL in a list that is not empty, and another literal where it equals itself. -/
def LookedUp (floats : Floats) (value : LiteralValue) (values : List LiteralValue) : Prop :=
  (value = .null → values ≠ []) ∧ (value ≠ .null → value ∈ values → (literalOrdering floats value value).isSome)

theorem compareLiteralValues_eq_iff {candidate : LiteralValue} (hvalue : value ≠ .null) (hcandidate : candidate ≠ .null)
    (hself : candidate = value → (literalOrdering host.floats value value).isSome) :
    compareLiteralValues host.floats value .eq candidate = .ok (some true) ↔
      M.compare .eq (M.literal value) (M.literal candidate) = some true := by
  refine ⟨fun h => compare_literals h,fun h => ?_⟩
  cases ho : literalOrdering host.floats value candidate with
  | some ordering =>
    have hok : compareLiteralValues host.floats value .eq candidate = .ok (some (orderingHolds .eq ordering)) := by
      rw [compareLiteralValues,if_neg (not_or.mpr ⟨hvalue,hcandidate⟩),ho]
    rw [hok,← compare_literals (M := M) hok,h]
  | none =>
    obtain ⟨v,hv⟩ := Option.ne_none_iff_exists'.mp (mt (M.literal_eq_none value).mp hvalue)
    obtain ⟨w,hw⟩ := Option.ne_none_iff_exists'.mp (mt (M.literal_eq_none candidate).mp hcandidate)
    have hne : value ≠ candidate := by
      rintro rfl
      have hsome := hself rfl
      rw [ho] at hsome
      cases hsome
    have hrank := M.rank_incomparable value candidate v w hv hw ho hne
    rw [hv,hw,compare_some] at h
    cases hr : M.rank v w with
    | eq => exact absurd hr hrank
    | lt | gt =>
      rw [hr] at h
      cases h

variable {values : List LiteralValue}

/-- The search passes over the NULLs of a list and finds an equal value. -/
theorem membership_matched (hvalue : value ≠ .null)
    (h : value ∈ values → (literalOrdering host.floats value value).isSome) :
    M.membership (M.literal value) ((nonNullSubqueryValues values).map M.literal) =
      some ((nonNullSubqueryValues values).any fun candidate =>
        match compareLiteralValues host.floats value .eq candidate with
        | .ok (some true) => true
        | _ => false) := by
  have hequal : ∀ candidate ∈ nonNullSubqueryValues values,
      M.compare .eq (M.literal value) (M.literal candidate) =
        some (match compareLiteralValues host.floats value .eq candidate with
          | .ok (some true) => true
          | _ => false) := by
    intro candidate hcandidate
    obtain ⟨hmem,hne⟩ := List.mem_filter.mp hcandidate
    have hcandidateNull := of_decide_eq_true hne
    have hiff := compareLiteralValues_eq_iff (M := M) hvalue hcandidateNull fun he => h (he ▸ hmem)
    obtain ⟨v,hv⟩ := Option.ne_none_iff_exists'.mp (mt (M.literal_eq_none value).mp hvalue)
    obtain ⟨w,hw⟩ := Option.ne_none_iff_exists'.mp (mt (M.literal_eq_none candidate).mp hcandidateNull)
    by_cases htrue : compareLiteralValues host.floats value .eq candidate = .ok (some true)
    · rw [hiff.mp htrue,htrue]
    · have hfalse := mt hiff.mpr htrue
      rw [hv,hw,compare_some,Option.some.injEq,Bool.not_eq_true] at hfalse
      rw [hv,hw,compare_some,hfalse]
      split
      · contradiction
      · rfl
  cases hmatched : (nonNullSubqueryValues values).any _ with
  | true =>
    obtain ⟨candidate,hcandidate,he⟩ := List.any_eq_true.mp hmatched
    exact membership_eq_true.mpr ⟨_,List.mem_map_of_mem hcandidate,(hequal candidate hcandidate).trans (congrArg some he)⟩
  | false =>
    refine membership_eq_false.mpr (List.forall_mem_map.mpr fun candidate hcandidate => ?_)
    rw [hequal candidate hcandidate]
    exact congrArg some (Bool.eq_false_iff.mpr fun he => Bool.eq_false_iff.mp hmatched (List.any_eq_true.mpr ⟨candidate,hcandidate,he⟩))

theorem evaluateLiteralInValues_eq (h : LookedUp host.floats value values) :
    evaluateLiteralInValues host.floats value values negated =
      negateIf negated (M.membership (M.literal value) (values.map M.literal)) := by
  by_cases hvalue : value = .null
  · rw [evaluateLiteralInValues,if_pos hvalue,(M.literal_eq_none value).mpr hvalue]
    cases values with
    | nil => exact absurd rfl (h.1 hvalue)
    | cons first rest =>
      rw [List.map_cons,membership_null]
      cases negated <;> rfl
  · rw [evaluateLiteralInValues,if_neg hvalue,← membership_nonNull,membership_matched hvalue (h.2 hvalue)]
    cases (nonNullSubqueryValues values).any _ <;> cases subqueryValuesContainNull values <;> cases negated <;> rfl

end Lookup
end Lists

section Leaves
variable {host : Host} {executeSql : Query → Result QueryOutput} {ρ : Type*} {M : Meaning host.floats ρ}
  {tableAlias : Option String} {row : ρ} {filter : Expr}

variable {expr left right : SqlExpr}

theorem maybeSqlFilterColumn_some {column : String}
    (h : maybeSqlFilterColumn host tableAlias expr = .ok (some column)) :
    sqlFilterColumn host tableAlias expr = .ok column := by
  unfold maybeSqlFilterColumn at h
  split at h
  case h_4 => cases h
  all_goals
    obtain ⟨_,hname,he⟩ := map_eq_ok_iff.mp h
    cases he
    exact hname

theorem columnFilter_meaning {op : ComparisonOp}
    (h : columnFilter host tableAlias left op right = .ok filter) :
    M.filter row filter = M.compare op (scalarValue host executeSql M (sqlColumnName host tableAlias) row left)
      (scalarValue host executeSql M (sqlColumnName host tableAlias) row right) := by
  obtain ⟨column,hcolumn,h⟩ := bind_eq_ok_iff.mp h
  obtain ⟨other,hother,h⟩ := bind_eq_ok_iff.mp h
  cases other with
  | some name =>
    cases h
    rw [scalarValue_of_column hcolumn,scalarValue_of_column (maybeSqlFilterColumn_some hother)]
    rfl
  | none =>
    obtain ⟨value,hvalue,h⟩ := bind_eq_ok_iff.mp h
    cases h
    rw [scalarValue_of_column hcolumn,scalarValue_of_literal hvalue]
    rfl

theorem comparisonFilter_meaning {op : ComparisonOp}
    (h : comparisonFilter host tableAlias left op right = .ok filter) :
    M.filter row filter = M.compare op (scalarValue host executeSql M (sqlColumnName host tableAlias) row left)
      (scalarValue host executeSql M (sqlColumnName host tableAlias) row right) := by
  unfold comparisonFilter at h
  split at h
  · rename_i hleft hright
    obtain ⟨holds,hholds,rfl⟩ := map_eq_ok_iff.mp h
    rw [scalarValue_of_literal hleft,scalarValue_of_literal hright]
    exact (compare_literals hholds).symm
  · exact columnFilter_meaning h

theorem negated_or (x y z : Option M.Val) :
    orKleene (M.compare .lt x y) (M.compare .gt x z) =
      (andKleene (M.compare .gtEq x y) (M.compare .ltEq x z)).map not := by
  cases x with
  | none => rfl
  | some v =>
    cases y with
    | none =>
      cases z with
      | none => rfl
      | some w => simp only [compare_none_right,compare_some]; cases M.rank v w <;> rfl
    | some u =>
      cases z with
      | none => simp only [compare_none_right,compare_some]; cases M.rank v u <;> rfl
      | some w => simp only [compare_some]; cases M.rank v u <;> cases M.rank v w <;> rfl

theorem betweenFilter_meaning (column : String) (negated : Bool) (low high : LiteralValue) :
    M.filter row (betweenFilter column negated low high) =
      negateIf negated (andKleene (M.compare .gtEq (M.cell column row) (M.literal low))
        (M.compare .ltEq (M.cell column row) (M.literal high))) := by
  cases negated with
  | false => rfl
  | true => exact negated_or _ _ _

theorem inListFilter_meaning {list : List SqlExpr} {negated : Bool}
    (h : inListFilter host tableAlias expr list negated = .ok filter)
    (hnull : sqlLiteralValue host expr = .ok .null → list = [] ∨ ∃ item ∈ list, sqlLiteralValue host item = .ok .null) :
    M.filter row filter = truth host executeSql M (sqlColumnName host tableAlias) row (.inList expr list negated) := by
  unfold inListFilter at h
  cases hcolumn : sqlFilterColumn host tableAlias expr with
  | ok column =>
    rw [hcolumn] at h
    obtain ⟨hasNull,hhasNull,h⟩ := bind_eq_ok_iff.mp h
    obtain ⟨values,hvalues,h⟩ := bind_eq_ok_iff.mp h
    cases h
    obtain ⟨literals,hliterals,rfl⟩ := nonNullLiteralValues_ok hvalues
    rw [literalListContainsNull_eq hliterals] at hhasNull
    cases hhasNull
    rw [filter_inList,truth,scalarValue_of_column hcolumn,scalarValue_of_literals hliterals]
  | error error =>
    rw [hcolumn] at h
    cases hliteral : sqlLiteralValue host expr with
    | error _ =>
      rw [hliteral] at h
      cases h
    | ok value =>
      rw [hliteral] at h
      obtain ⟨holds,hholds,rfl⟩ := map_eq_ok_iff.mp h
      rw [truth,scalarValue_of_literal hliteral]
      exact evaluateLiteralInList_eq hholds fun he => hnull (he ▸ hliteral)

theorem like_meaning {pattern : SqlExpr} {negated caseInsensitive : Bool} {escapeChar : Option Value} {column text : String}
    {escape : Option Char} (hcolumn : sqlFilterColumn host tableAlias expr = .ok column)
    (hpattern : sqlLikePattern host pattern = .ok text) (hescape : sqlLikeEscape escapeChar = .ok escape) :
    M.filter row (.like ⟨column,text,negated,escape,caseInsensitive⟩) =
      truth host executeSql M (sqlColumnName host tableAlias) row
        (.like expr pattern negated false escapeChar caseInsensitive) := by
  rw [truth,scalarValue_of_column hcolumn]
  exacts [rfl,hpattern,hescape]

end Leaves

section Predicates
variable {host : Host} {executeSql : Query → Result QueryOutput} {ρ : Type*} {M : Meaning host.floats ρ}
  {tableAlias : Option String} {row : ρ}

/-- NULL is not looked up in a list without NULLs, and no literal in a subquery where equality with itself is not defined. -/
def ExactLookups (host : Host) (executeSql : Query → Result QueryOutput) : SqlExpr → Prop
  | .binaryOp left op right =>
    op = .and ∨ op = .or → ExactLookups host executeSql left ∧ ExactLookups host executeSql right
  | .unaryOp op expr => op = .not → ExactLookups host executeSql expr
  | .nested expr => ExactLookups host executeSql expr
  | .inList expr list _ =>
    sqlLiteralValue host expr = .ok .null → list = [] ∨ ∃ item ∈ list, sqlLiteralValue host item = .ok .null
  | .inSubquery expr subquery _ =>
    ∀ value, sqlLiteralValue host expr = .ok value → LookedUp host.floats value (subqueryValues host executeSql subquery)
  | _ => True

/-- The filter that is read from a predicate has its truth value. -/
theorem sqlExprToFilterExpr_meaning : ∀ {expr : SqlExpr} {filter : Expr}, sqlExprToFilterExpr host tableAlias expr = .ok filter →
    ExactLookups host executeSql expr →
      M.filter row filter = truth host executeSql M (sqlColumnName host tableAlias) row expr
  | .binaryOp left op right,filter,h,hlookups => by
    cases op
    case and =>
      obtain ⟨a,ha,h⟩ := bind_eq_ok_iff.mp h
      obtain ⟨b,hb,h⟩ := bind_eq_ok_iff.mp h
      cases h
      obtain ⟨hleft,hright⟩ := hlookups (Or.inl rfl)
      rw [filter,sqlExprToFilterExpr_meaning ha hleft,sqlExprToFilterExpr_meaning hb hright]
      rfl
    case or =>
      obtain ⟨a,ha,h⟩ := bind_eq_ok_iff.mp h
      obtain ⟨b,hb,h⟩ := bind_eq_ok_iff.mp h
      cases h
      obtain ⟨hleft,hright⟩ := hlookups (Or.inr rfl)
      rw [filter,sqlExprToFilterExpr_meaning ha hleft,sqlExprToFilterExpr_meaning hb hright]
      rfl
    case eq | notEq | lt | ltEq | gt | gtEq => exact comparisonFilter_meaning h
    all_goals exact absurd h (unsupportedSql_ne_ok _ _)
  | .nested expr,filter,h,hlookups => by
    rw [truth]
    exact sqlExprToFilterExpr_meaning h hlookups
  | .value value,filter,h,_ => by
    cases value
    case boolean | null =>
      cases h
      rfl
    all_goals exact absurd h (unsupportedSql_ne_ok _ _)
  | .between expr negated low high,filter,h,_ => by
    obtain ⟨column,hcolumn,h⟩ := bind_eq_ok_iff.mp h
    obtain ⟨l,hl,h⟩ := bind_eq_ok_iff.mp h
    obtain ⟨u,hu,h⟩ := bind_eq_ok_iff.mp h
    cases h
    rw [betweenFilter_meaning,truth,scalarValue_of_column hcolumn,scalarValue_of_literal hl,scalarValue_of_literal hu]
  | .unaryOp op expr,filter,h,hlookups => by
    cases op
    case not =>
      obtain ⟨inner,hinner,h⟩ := bind_eq_ok_iff.mp h
      cases h
      rw [filter,sqlExprToFilterExpr_meaning hinner (hlookups rfl)]
      rfl
    all_goals exact absurd h (unsupportedSql_ne_ok _ _)
  | .isNull expr,filter,h,_ => by
    obtain ⟨column,hcolumn,h⟩ := bind_eq_ok_iff.mp h
    cases h
    rw [filter,truth,scalarValue_of_column hcolumn,Bool.bne_false]
  | .isNotNull expr,filter,h,_ => by
    obtain ⟨column,hcolumn,h⟩ := bind_eq_ok_iff.mp h
    cases h
    rw [filter,truth,scalarValue_of_column hcolumn,Bool.bne_true]
    cases M.cell column row <;> rfl
  | .inList expr list negated,filter,h,hlookups => inListFilter_meaning h hlookups
  | .like expr pattern negated any escapeChar caseInsensitive,filter,h,_ => by
    cases any with
    | true => exact absurd h (unsupportedSql_ne_ok _ _)
    | false =>
      obtain ⟨column,hcolumn,h⟩ := bind_eq_ok_iff.mp h
      obtain ⟨text,htext,h⟩ := bind_eq_ok_iff.mp h
      obtain ⟨escape,hescape,h⟩ := bind_eq_ok_iff.mp h
      cases h
      exact like_meaning hcolumn htext hescape

end Predicates
end Dodam.Sql
