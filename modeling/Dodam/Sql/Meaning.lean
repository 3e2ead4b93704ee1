import Dodam.Sql.PredicatePushdown

/-! # What predicates and filters mean

On a row a scalar has a value or is NULL, and a predicate is true, false or unknown.
-/
namespace Dodam.Sql
open Foundation Execution

/-- Literals that are compared have the order of their values; other literals are not equal. -/
structure Meaning (floats : Floats) (ρ : Type*) where
  Val : Type
  literal : LiteralValue → Option Val
  cell : String → ρ → Option Val
  scalar : SqlExpr → ρ → Option Val
  condition : SqlExpr → ρ → Option Bool
  rank : Val → Val → Ordering
  like : Val → String → Option Char → Bool → Bool
  literal_eq_none : ∀ l, literal l = none ↔ l = .null
  rank_swap : ∀ v w, rank w v = (rank v w).swap
  rank_literals : ∀ l r v w o, literal l = some v → literal r = some w → literalOrdering floats l r = some o → rank v w = o
  rank_incomparable : ∀ l r v w, literal l = some v → literal r = some w → literalOrdering floats l r = none →
    l ≠ r → rank v w ≠ .eq

def negateIf (negated : Bool) (value : Option Bool) : Option Bool := if negated then value.map not else value

namespace Meaning
variable {floats : Floats} {ρ : Type*} (M : Meaning floats ρ)

def compare (op : ComparisonOp) (x y : Option M.Val) : Option Bool :=
  x.bind fun v => y.map fun w => orderingHolds op (M.rank v w)

def membership (x : Option M.Val) (ys : List (Option M.Val)) : Option Bool :=
  ys.foldl (fun found y => orKleene found (M.compare .eq x y)) (some false)

def filter (row : ρ) : Expr → Option Bool
  | .boolean value => value
  | .comparison comparison => M.compare comparison.op (M.cell comparison.column row) (M.literal comparison.value)
  | .columnComparison left op right => M.compare op (M.cell left row) (M.cell right row)
  | .inList column values negated hasNull =>
    let found := M.membership (M.cell column row) (values.map M.literal)
    negateIf negated (if hasNull then (if found = some true then found else none) else found)
  | .like like => negateIf like.negated ((M.cell like.column row).map fun v => M.like v like.pattern like.escape like.caseInsensitive)
  | .isNull column negated => some ((M.cell column row).isNone != negated)
  | .not expr => (filter row expr).map not
  | .and left right => andKleene (filter row left) (filter row right)
  | .or left right => orKleene (filter row left) (filter row right)

section Compare
variable {M} {op : ComparisonOp} {x : Option M.Val} {ys : List (Option M.Val)}

@[simp] theorem compare_none_left {y : Option M.Val} : M.compare op none y = none := rfl

@[simp] theorem compare_none_right : M.compare op x none = none := by
  cases x <;> rfl

@[simp] theorem compare_some {v w : M.Val} :
    M.compare op (some v) (some w) = some (orderingHolds op (M.rank v w)) := rfl

theorem orderingHolds_swap (op : ComparisonOp) (ordering : Ordering) :
    orderingHolds (reverseComparison op) ordering.swap = orderingHolds op ordering := by
  cases op <;> cases ordering <;> rfl

theorem compare_reverse (op : ComparisonOp) (x y : Option M.Val) :
    M.compare (reverseComparison op) y x = M.compare op x y := by
  cases x with
  | none => simp
  | some v =>
    cases y with
    | none => simp
    | some w => rw [compare_some,compare_some,M.rank_swap v w,orderingHolds_swap]

theorem compare_literals {l r : LiteralValue} {holds : Option Bool}
    (h : compareLiteralValues floats l op r = .ok holds) : M.compare op (M.literal l) (M.literal r) = holds := by
  unfold compareLiteralValues at h
  split_ifs at h with hnull
  · cases h
    rcases hnull with rfl | rfl
    · rw [(M.literal_eq_none _).mpr rfl,compare_none_left]
    · rw [(M.literal_eq_none _).mpr rfl,compare_none_right]
  · rw [not_or] at hnull
    obtain ⟨v,hv⟩ := Option.ne_none_iff_exists'.mp (mt (M.literal_eq_none l).mp hnull.1)
    obtain ⟨w,hw⟩ := Option.ne_none_iff_exists'.mp (mt (M.literal_eq_none r).mp hnull.2)
    cases ho : literalOrdering floats l r with
    | none =>
      rw [ho] at h
      exact absurd h (invalidFilter_ne_ok _ _)
    | some ordering =>
      rw [ho] at h
      cases h
      rw [hv,hw,compare_some,M.rank_literals l r v w ordering hv hw ho]

theorem membership_eq_true :
    M.membership x ys = some true ↔ ∃ y ∈ ys, M.compare .eq x y = some true := by
  simp [membership,foldl_orKleene_eq_true]

theorem membership_eq_false :
    M.membership x ys = some false ↔ ∀ y ∈ ys, M.compare .eq x y = some false := by
  simp [membership,foldl_orKleene_eq_false]

theorem membership_nonNull (x : Option M.Val) (values : List LiteralValue) :
    (if subqueryValuesContainNull values then
        (if M.membership x ((nonNullSubqueryValues values).map M.literal) = some true then
          M.membership x ((nonNullSubqueryValues values).map M.literal) else none)
      else M.membership x ((nonNullSubqueryValues values).map M.literal)) =
      M.membership x (values.map M.literal) := by
  have hunknown : ∀ value : LiteralValue, decide (value ≠ .null) = false → M.compare .eq x (M.literal value) = none := by
    intro value hnull
    have hvalue : value = .null := by simpa using hnull
    rw [(M.literal_eq_none value).mpr hvalue,compare_none_right]
  have hany : subqueryValuesContainNull values = values.any fun value => !decide (value ≠ .null) := by
    simp [subqueryValuesContainNull]
  unfold membership
  rw [hany,List.foldl_map,List.foldl_map]
  exact foldl_orKleene_filter hunknown

theorem filter_inList {row : ρ} (column : String) (values : List LiteralValue) (negated : Bool) :
    M.filter row (.inList column (nonNullSubqueryValues values) negated (subqueryValuesContainNull values)) =
      negateIf negated (M.membership (M.cell column row) (values.map M.literal)) :=
  congrArg (negateIf negated) (membership_nonNull (M.cell column row) values)

end Compare

section Kernels
variable {γ : Type*} {M : Meaning floats ℕ} {kernels : Kernels γ} {batch : Batch γ}

/-- The kernels compute what the leaves of a filter mean on the rows of a batch. -/
structure Computes (M : Meaning floats ℕ) (kernels : Kernels γ) (batch : Batch γ) : Prop where
  comparison : ∀ c mask, evaluateBatchComparison kernels batch c = .ok mask →
    ∀ row < batch.numRows, mask[row]? = some (M.filter row (.comparison c))
  columnComparison : ∀ left op right mask, kernels.columnComparison batch left op right = .ok mask →
    ∀ row < batch.numRows, mask[row]? = some (M.filter row (.columnComparison left op right))
  like : ∀ l mask, kernels.like batch l = .ok mask → ∀ row < batch.numRows, mask[row]? = some (M.filter row (.like l))
  isNull : ∀ column negated mask, kernels.isNull batch column negated = .ok mask →
    ∀ row < batch.numRows, mask[row]? = some (M.filter row (.isNull column negated))

theorem getElem?_zipWith_some {f : Option Bool → Option Bool → Option Bool} {a b : Mask} {row : ℕ} {x y : Option Bool}
    (ha : a[row]? = some x) (hb : b[row]? = some y) : (List.zipWith f a b)[row]? = some (f x y) := by
  rw [List.getElem?_zipWith,ha,hb]

variable (hcomputes : Computes M kernels batch)
include hcomputes

theorem foldlM_inList {column : String} {row : ℕ} (hrow : row < batch.numRows) {values : List LiteralValue}
    {mask result : Mask} {found : Option Bool} (hmask : mask[row]? = some found)
    (h : values.foldlM (fun mask value =>
      (evaluateBatchComparison kernels batch ⟨column,.eq,value⟩).map (orMasks mask)) mask = .ok result) :
    result[row]? = some ((values.map M.literal).foldl
      (fun found y => orKleene found (M.compare .eq (M.cell column row) y)) found) := by
  induction values generalizing mask found with
  | nil =>
    cases h
    exact hmask
  | cons value values ih =>
    rw [List.foldlM_cons] at h
    obtain ⟨next,hnext,h⟩ := bind_eq_ok_iff.mp h
    obtain ⟨equal,hequal,rfl⟩ := map_eq_ok_iff.mp hnext
    exact ih (getElem?_zipWith_some hmask (hcomputes.comparison _ _ hequal row hrow)) h

theorem evaluateFilter_eq_filter {expr : Expr} {mask : Mask} (h : evaluateFilter kernels batch expr = .ok mask)
    {row : ℕ} (hrow : row < batch.numRows) : mask[row]? = some (M.filter row expr) := by
  induction expr generalizing mask with
  | boolean value =>
    cases h
    rw [List.getElem?_replicate,if_pos hrow]
    rfl
  | comparison c => exact hcomputes.comparison c mask h row hrow
  | columnComparison left op right => exact hcomputes.columnComparison left op right mask h row hrow
  | inList column values negated hasNull =>
    obtain ⟨found,hfound,rfl⟩ := map_eq_ok_iff.mp h
    have hat : found[row]? = some (M.membership (M.cell column row) (values.map M.literal)) :=
      foldlM_inList hcomputes hrow (by rw [List.getElem?_replicate,if_pos hrow]) hfound
    rw [filter]
    generalize M.membership (M.cell column row) (values.map M.literal) = value at hat ⊢
    cases negated <;> cases hasNull <;> simp [negateIf,notMask,nullifyFalseValues,hat]
  | like l => exact hcomputes.like l mask h row hrow
  | isNull column negated => exact hcomputes.isNull column negated mask h row hrow
  | not expr ih =>
    obtain ⟨inner,hinner,rfl⟩ := map_eq_ok_iff.mp h
    simp [notMask,ih hinner,filter]
  | and left right ihl ihr | or left right ihl ihr =>
    obtain ⟨a,ha,h⟩ := bind_eq_ok_iff.mp h
    obtain ⟨b,hb,rfl⟩ := map_eq_ok_iff.mp h
    exact getElem?_zipWith_some (ihl ha) (ihr hb)

end Kernels

end Meaning

section Literals

def literalKind : LiteralValue → ℕ
  | .null => 0
  | .boolean _ => 1
  | .int64 _ => 2
  | .float64 _ => 3
  | .utf8 _ => 4

/-- The order of literals, kind by kind; floating-point numbers are ordered by their texts. -/
def literalRank : LiteralValue → LiteralValue → Ordering
  | .boolean a,.boolean b => Ord.compare a b
  | .int64 a,.int64 b => Ord.compare a.toInt b.toInt
  | .float64 a,.float64 b => Ord.compare a b
  | .utf8 a,.utf8 b => Ord.compare a b
  | a,b => Ord.compare (literalKind a) (literalKind b)

theorem literalRank_swap (a b : LiteralValue) : literalRank b a = (literalRank a b).swap := by
  cases a <;> cases b <;> simp only [literalRank] <;> exact Std.OrientedOrd.eq_swap

theorem literalRank_eq {a b : LiteralValue} (h : literalRank a b = .eq) : a = b := by
  cases a <;> cases b <;> simp_all [literalRank,literalKind,Int64.toInt_inj]

theorem literalRank_ordering {floats : Floats} (hfloats : ∀ a b, floats.partialCmp a b = none) {a b : LiteralValue}
    {ordering : Ordering} (h : literalOrdering floats a b = some ordering) : literalRank a b = ordering := by
  cases a <;> cases b <;> simp_all [literalOrdering,literalRank]

/-- Values that are literals themselves, where numbers of different kinds are not compared. -/
def literalMeaning {ρ : Type*} (floats : Floats) (hfloats : ∀ a b, floats.partialCmp a b = none)
    (cell : String → ρ → Option LiteralValue) (scalar : SqlExpr → ρ → Option LiteralValue) : Meaning floats ρ where
  Val := LiteralValue
  literal l := if l = .null then none else some l
  cell := cell
  scalar := scalar
  condition _ _ := none
  rank := literalRank
  like _ _ _ _ := false
  literal_eq_none l := by simp
  rank_swap := literalRank_swap
  rank_literals l r v w o hv hw ho := by
    split_ifs at hv hw
    cases hv
    cases hw
    exact literalRank_ordering hfloats ho
  rank_incomparable l r v w hv hw ho hne := by
    split_ifs at hv hw
    cases hv
    cases hw
    exact fun he => hne (literalRank_eq he)

def noCells : Meaning textHost.floats ℕ := literalMeaning textHost.floats textHost_partialCmp (fun _ _ => none) fun _ _ => none

def noKernels : Kernels Unit :=
  ⟨fun _ _ => .error .panicked,fun _ _ _ _ => .error .panicked,fun _ _ => .error .panicked,fun _ _ _ => .error .panicked⟩

theorem computes_noKernels : noCells.Computes noKernels ⟨1,[]⟩ := by
  refine ⟨?_,nofun,nofun,nofun⟩
  rintro ⟨column,op,value⟩ mask h row hrow
  by_cases hnull : value = .null
  · subst hnull
    cases h
    simp_all [Meaning.filter,noCells,literalMeaning,Meaning.compare]
  · rw [evaluateBatchComparison,if_neg hnull,columnIndex] at h
    cases hsplit : splitOnce '.' column.toList <;> simp [Batch.names,hsplit,unknownColumn] at h <;> cases h

theorem evaluateFilter_eq_filter_null : ([some true] : Mask)[0]? =
    some (noCells.filter (0 : ℕ) (.or (.comparison ⟨"a",.eq,.null⟩) (.not (.boolean (some false))))) :=
  Meaning.evaluateFilter_eq_filter computes_noKernels rfl Nat.one_pos

end Literals

section Predicates
variable (host : Host) (executeSql : Query → Result QueryOutput) {ρ : Type*} (M : Meaning host.floats ρ)
  (resolve : SqlExpr → Result String)

def subqueryValues (subquery : Query) : List LiteralValue :=
  ((subqueryBatches executeSql subquery).bind (literalValuesFromSingleColumnBatches host.floats)).toOption.getD []

/-- The rows of a subquery are counted without reading them. -/
def subqueryHasRows (subquery : Query) : Bool :=
  ((subqueryBatches executeSql subquery).toOption.getD []).any fun batch => 0 < batch.numRows

def scalarSubqueryValue (subquery : Query) : Option M.Val :=
  match subqueryValues host executeSql subquery with
  | [value] => M.literal value
  | _ => none

def isCoalesce (name : List String) : Bool :=
  match name with
  | [name] => String.ofList (name.toList.map Char.toLower) = "coalesce"
  | _ => false

mutual

def scalarValue (row : ρ) : SqlExpr → Option M.Val
  | .nested expr => scalarValue row expr
  | .subquery subquery => scalarSubqueryValue host executeSql M subquery
  | .function name args => if isCoalesce name then firstValue row args else M.scalar (.function name args) row
  | .identifier value =>
    match resolve (.identifier value) with
    | .ok column => M.cell column row
    | .error _ => M.scalar (.identifier value) row
  | .compoundIdentifier parts =>
    match resolve (.compoundIdentifier parts) with
    | .ok column => M.cell column row
    | .error _ => M.scalar (.compoundIdentifier parts) row
  | expr =>
    match sqlLiteralValue host expr with
    | .ok value => M.literal value
    | .error _ => M.scalar expr row

def firstValue (row : ρ) : List SqlExpr → Option M.Val
  | [] => none
  | expr :: exprs => (scalarValue row expr).or (firstValue row exprs)

end

def truth (row : ρ) : SqlExpr → Option Bool
  | .binaryOp left op right =>
    match op with
    | .and => andKleene (truth row left) (truth row right)
    | .or => orKleene (truth row left) (truth row right)
    | op =>
      match op.comparison with
      | some op => M.compare op (scalarValue host executeSql M resolve row left)
          (scalarValue host executeSql M resolve row right)
      | none => M.condition (.binaryOp left op right) row
  | .unaryOp op expr =>
    match op with
    | .not => (truth row expr).map not
    | op => M.condition (.unaryOp op expr) row
  | .nested expr => truth row expr
  | .value value =>
    match value with
    | .boolean value => some value
    | .null => none
    | value => M.condition (.value value) row
  | .isNull expr => some (scalarValue host executeSql M resolve row expr).isNone
  | .isNotNull expr => some (scalarValue host executeSql M resolve row expr).isSome
  | .inList expr list negated =>
    negateIf negated (M.membership (scalarValue host executeSql M resolve row expr)
      (list.map (scalarValue host executeSql M resolve row)))
  | .inSubquery expr subquery negated =>
    negateIf negated (M.membership (scalarValue host executeSql M resolve row expr)
      ((subqueryValues host executeSql subquery).map M.literal))
  | .existsSubquery subquery negated => some (subqueryHasRows executeSql subquery != negated)
  | .between expr negated low high =>
    let value := scalarValue host executeSql M resolve row expr
    negateIf negated (andKleene (M.compare .gtEq value (scalarValue host executeSql M resolve row low))
      (M.compare .ltEq value (scalarValue host executeSql M resolve row high)))
  | .like expr pattern negated any escapeChar caseInsensitive =>
    match any,sqlLikePattern host pattern,sqlLikeEscape escapeChar with
    | false,.ok text,.ok escape =>
      negateIf negated ((scalarValue host executeSql M resolve row expr).map fun v =>
        M.like v text escape caseInsensitive)
    | _,_,_ => M.condition (.like expr pattern negated any escapeChar caseInsensitive) row
  | expr => M.condition expr row

end Predicates
end Dodam.Sql
