import Dodam.Sql.Translation
import Dodam.Sql.WeakerFilter

/-! # A split predicate

The filter and the expression filters that a predicate is split into hold
together on the rows on which the predicate is true, as long as no operand is
left untranslated: an operand that needs the expression evaluator, inside a
conjunct with a subquery, is passed over.
-/
namespace Dodam.Sql
open Foundation Execution

section Split
variable {host : Host} {executeSql : Query → Result QueryOutput} {ρ : Type*} {M : Meaning host.floats ρ}
  {tableAlias : Option String} {row : ρ}

theorem truth_conjuncts : ∀ {selection : SqlExpr} {resolve : SqlExpr → Result String},
    truth host executeSql M resolve row selection = some true ↔
      ∀ conjunct ∈ sqlAndConjuncts selection, truth host executeSql M resolve row conjunct = some true
  | .binaryOp left op right,resolve => by
    cases op
    case and =>
      rw [sqlAndConjuncts,List.forall_mem_append,← truth_conjuncts,← truth_conjuncts]
      exact andKleene_eq_true
    all_goals exact (List.forall_mem_singleton (p := fun e => truth host executeSql M resolve row e = some true)).symm
  | .nested expr,resolve => by
    rw [truth,sqlAndConjuncts]
    exact truth_conjuncts
  | .identifier _,resolve | .compoundIdentifier _,resolve | .value _,resolve | .typedString _ _,resolve
  | .interval _ _,resolve | .subquery _,resolve | .between _ _ _ _,resolve | .like _ _ _ _ _ _,resolve
  | .function _ _,resolve | .cast _ _,resolve | .substring _ _ _,resolve | .other _,resolve | .isNull _,resolve
  | .isNotNull _,resolve | .inList _ _ _,resolve | .inSubquery _ _ _,resolve | .existsSubquery _ _,resolve
  | .unaryOp _ _,resolve =>
    (List.forall_mem_singleton (p := fun e => truth host executeSql M resolve row e = some true)).symm

def PassesFilter (M : Meaning host.floats ρ) (row : ρ) (filter : Option Expr) : Prop :=
  ∀ f, filter = some f → M.filter row f = some true

theorem foldl_and_true {first : Expr} {filters : List Expr} :
    M.filter row (filters.foldl (fun right left => .and left right) first) = some true ↔
      M.filter row first = some true ∧ ∀ f ∈ filters, M.filter row f = some true := by
  induction filters generalizing first with
  | nil => simp
  | cons f filters ih =>
    rw [List.foldl_cons,ih,Meaning.filter,andKleene_eq_true,List.forall_mem_cons,and_comm (a := M.filter row f = some true),
      and_assoc]

theorem passesFilter_combineExprFilters {filters : List Expr} :
    PassesFilter M row (combineExprFilters filters) ↔ ∀ f ∈ filters, M.filter row f = some true := by
  rcases List.eq_nil_or_concat filters with rfl | ⟨filters,last,rfl⟩
  · exact iff_of_true (fun _ h => by cases h) (List.forall_mem_nil _)
  · rw [List.concat_eq_append,combineExprFilters,List.getLast?_concat,List.dropLast_concat,List.forall_mem_append,
      List.forall_mem_singleton,PassesFilter]
    simp only [Option.some.injEq,forall_eq',foldl_and_true]
    exact and_comm

/-- A row passes the scan filter and all expression filters. -/
def PassesSplit (executeSql : Query → Result QueryOutput) (M : Meaning host.floats ρ) (tableAlias : Option String) (row : ρ)
    (split : Option Expr × List SqlExpr) : Prop :=
  PassesFilter M row split.1 ∧ ∀ expr ∈ split.2, truth host executeSql M (sqlColumnName host tableAlias) row expr = some true

/-- No operand of a conjunct that is translated is absent from the translation. -/
def NoOperandDropped (host : Host) (executeSql : Query → Result QueryOutput) (tableAlias : Option String)
    (selection : SqlExpr) : Prop :=
  ∀ conjunct ∈ sqlAndConjuncts selection, ¬ KeepsExpression host conjunct → ∀ operand ∈ operands conjunct,
    parseFilterWithSubqueries host executeSql tableAlias operand ≠ .ok none

theorem splitConjunct_meaning {conjunct : SqlExpr} {part : Option Expr × List SqlExpr}
    (h : splitConjunct host executeSql tableAlias conjunct = .ok part)
    (hlookups : ¬ KeepsExpression host conjunct → ExactLookups host executeSql conjunct)
    (hdrops : ¬ KeepsExpression host conjunct → dropsOperand host conjunct = false) :
    PassesSplit executeSql M tableAlias row part ↔
      truth host executeSql M (sqlColumnName host tableAlias) row conjunct = some true := by
  unfold splitConjunct at h
  split_ifs at h with hkeeps
  · obtain ⟨filter,hfilter,rfl⟩ := map_eq_ok_iff.mp h
    refine ⟨fun hpasses => hpasses.2 conjunct (List.mem_singleton_self _),fun htrue => ⟨?_,by simpa using htrue⟩⟩
    rintro f rfl
    exact safeExpressionPushdownFilter_weaker (readsColumns_single host tableAlias) hfilter htrue
  · obtain ⟨filter,hfilter,rfl⟩ := map_eq_ok_iff.mp h
    have htranslates := parseFilterWithSubqueries_translates hfilter
    obtain ⟨f,rfl⟩ := Option.isSome_iff_exists.mp (htranslates.isSome (hdrops hkeeps))
    have hmeaning : M.filter row f = truth host executeSql M (sqlColumnName host tableAlias) row conjunct :=
      htranslates.meaning (hdrops hkeeps) (hlookups hkeeps) rfl
    rw [← hmeaning]
    refine ⟨fun hpasses => hpasses.1 f rfl,fun htrue => ⟨?_,List.forall_mem_nil _⟩⟩
    rintro g hg
    cases hg
    exact htrue

theorem passesSplit_parts {parts : List (Option Expr × List SqlExpr)} :
    PassesSplit executeSql M tableAlias row (combineExprFilters (parts.filterMap Prod.fst),parts.flatMap Prod.snd) ↔
      ∀ part ∈ parts, PassesSplit executeSql M tableAlias row part := by
  rw [PassesSplit,passesFilter_combineExprFilters]
  constructor
  · rintro ⟨hfilters,hexprs⟩ part hpart
    refine ⟨fun f hf => hfilters f (List.mem_filterMap.mpr ⟨part,hpart,hf⟩),fun expr hexpr => ?_⟩
    exact hexprs expr (List.mem_flatMap.mpr ⟨part,hpart,hexpr⟩)
  · intro hparts
    constructor
    · intro f hf
      obtain ⟨part,hpart,he⟩ := List.mem_filterMap.mp hf
      exact (hparts part hpart).1 f he
    · intro expr hexpr
      obtain ⟨part,hpart,he⟩ := List.mem_flatMap.mp hexpr
      exact (hparts part hpart).2 expr he

theorem translated_drops {conjunct : SqlExpr} (hkeeps : ¬ KeepsExpression host conjunct)
    (hdrops : exprContainsMaterializableSubquery conjunct = true → dropsOperand host conjunct = false) :
    dropsOperand host conjunct = false := by
  by_cases hsubquery : exprContainsMaterializableSubquery conjunct = true
  · exact hdrops hsubquery
  · refine dropsOperand_of_not_requires (Bool.eq_false_iff.mpr fun hrequires => hkeeps ⟨hrequires,?_⟩)
    exact Bool.eq_false_iff.mpr hsubquery

theorem noOperandDropped_iff {selection : SqlExpr} {split : Option Expr × List SqlExpr}
    (h : splitSubqueryAndExpressionFilters host executeSql tableAlias selection = .ok split) :
    NoOperandDropped host executeSql tableAlias selection ↔
      ∀ conjunct ∈ sqlAndConjuncts selection, exprContainsMaterializableSubquery conjunct = true →
        dropsOperand host conjunct = false := by
  obtain ⟨parts,hparts,-⟩ := bind_eq_ok_iff.mp h
  constructor
  · intro hnone conjunct hconjunct hsubquery
    by_contra hdrops
    have hkeeps : ¬ KeepsExpression host conjunct := fun hkeeps => by simp [hkeeps.2] at hsubquery
    obtain ⟨part,-,hpart⟩ := exists_of_forall₂_left (mapM_ok_iff.mp hparts) hconjunct
    rw [splitConjunct,if_neg hkeeps] at hpart
    obtain ⟨filter,hfilter,-⟩ := map_eq_ok_iff.mp hpart
    obtain ⟨operand,hoperand,habsent⟩ :=
      (parseFilterWithSubqueries_translates hfilter).dropped (Bool.not_eq_false _ ▸ hdrops)
    exact hnone conjunct hconjunct hkeeps operand hoperand habsent.parse
  · intro hdrops conjunct hconjunct hkeeps operand hoperand habsent
    have hsome := (parseFilterWithSubqueries_translates habsent).isSome
      (dropsOperand_operands (translated_drops hkeeps (hdrops conjunct hconjunct)) operand hoperand)
    cases hsome

/-- Where no NULL literal is looked up in a list without NULLs, an accepted predicate is split without loss exactly if no
conjunct with a subquery has an operand that the translator drops. -/
theorem splitSubqueryAndExpressionFilters_iff {selection : SqlExpr} {split : Option Expr × List SqlExpr}
    (h : splitSubqueryAndExpressionFilters host executeSql tableAlias selection = .ok split)
    (hlookups : ∀ conjunct ∈ sqlAndConjuncts selection, ¬ KeepsExpression host conjunct →
      ExactLookups host executeSql conjunct) :
    ((∀ row, PassesSplit executeSql M tableAlias row split ↔
        truth host executeSql M (sqlColumnName host tableAlias) row selection = some true) ∧
      NoOperandDropped host executeSql tableAlias selection) ↔
      ∀ conjunct ∈ sqlAndConjuncts selection, exprContainsMaterializableSubquery conjunct = true →
        dropsOperand host conjunct = false := by
  rw [noOperandDropped_iff h]
  refine ⟨fun hboth => hboth.2,fun hdrops => ⟨fun row => ?_,hdrops⟩⟩
  obtain ⟨parts,hparts,he⟩ := bind_eq_ok_iff.mp h
  cases he
  have hforall := mapM_ok_iff.mp hparts
  have hmeaning : ∀ conjunct ∈ sqlAndConjuncts selection, ∀ part, splitConjunct host executeSql tableAlias conjunct = .ok part →
      (PassesSplit executeSql M tableAlias row part ↔
        truth host executeSql M (sqlColumnName host tableAlias) row conjunct = some true) := by
    intro conjunct hconjunct part hpart
    exact splitConjunct_meaning hpart (hlookups conjunct hconjunct) fun hkeeps =>
      translated_drops hkeeps (hdrops conjunct hconjunct)
  rw [passesSplit_parts,truth_conjuncts]
  constructor
  · intro hpasses conjunct hconjunct
    obtain ⟨part,hpart,hok⟩ := exists_of_forall₂_left hforall hconjunct
    exact (hmeaning conjunct hconjunct part hok).mp (hpasses part hpart)
  · intro htrue part hpart
    obtain ⟨conjunct,hconjunct,hok⟩ := exists_of_forall₂_right hforall hpart
    exact (hmeaning conjunct hconjunct part hok).mpr (htrue conjunct hconjunct)

section Examples

def oneRowEngine (_ : Query) : Result QueryOutput := .ok (.scan [⟨1,[.int64 [some 1]]⟩])

/-- A row with the text `X` in `a` and two in `b`; the lower case of `a` is `x`. -/
def rowMeaning : Meaning textHost.floats Unit :=
  literalMeaning textHost.floats (fun _ _ => rfl) (fun column _ => if column = "b" then some (.int64 2) else some (.utf8 "X"))
    fun _ _ => some (.utf8 "x")

def membershipPredicate : SqlExpr := .inSubquery (.identifier "b") "SELECT c FROM t" false

/-- `LOWER(a) = 'x' OR b IN (SELECT c FROM t)` -/
def mixedPredicate : SqlExpr :=
  .binaryOp (.binaryOp (.function ["lower"] [.identifier "a"]) .eq (.value (.singleQuotedString "x"))) .or membershipPredicate

theorem splitSubqueryAndExpressionFilters_iff_membership :
    ((∀ row, PassesSplit oneRowEngine rowMeaning none row (some (.inList "b" [.int64 1] false false),[]) ↔
        truth textHost oneRowEngine rowMeaning (sqlColumnName textHost none) row membershipPredicate = some true) ∧
      NoOperandDropped textHost oneRowEngine none membershipPredicate) ↔
      ∀ conjunct ∈ sqlAndConjuncts membershipPredicate, exprContainsMaterializableSubquery conjunct = true →
        dropsOperand textHost conjunct = false :=
  splitSubqueryAndExpressionFilters_iff rfl fun conjunct hconjunct _ => by
    rw [List.mem_singleton.mp hconjunct]
    exact fun value h => absurd h (unsupportedSql_ne_ok _ _)

/-- The comparison that needs the expression evaluator is lost, and with it a row. -/
theorem splitSubqueryAndExpressionFilters_drops :
    ¬ ∀ split, splitSubqueryAndExpressionFilters textHost oneRowEngine none mixedPredicate = .ok split →
      ∀ row, (PassesSplit oneRowEngine rowMeaning none row split ↔
        truth textHost oneRowEngine rowMeaning (sqlColumnName textHost none) row mixedPredicate = some true) := by
  intro hall
  have hpasses := (hall (some (.inList "b" [.int64 1] false false),[]) rfl ()).mpr rfl
  have htrue := hpasses.1 _ rfl
  have hfalse : rowMeaning.filter () (.inList "b" [.int64 1] false false) = some false := rfl
  rw [hfalse] at htrue
  cases htrue

end Examples
end Split
end Dodam.Sql
