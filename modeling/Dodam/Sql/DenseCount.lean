import Dodam.Foundation.ValueCounts
import Dodam.Sql.LikeSubstrings
import Dodam.Sql.MetadataPredicate

/-! # Counting the groups of a left join densely

A derived table that counts the rows of a left join for each left key, grouped again by those
counts, is answered without the join: the right rows are counted by key in an array whose range
comes from the row-group statistics, and each left row adds one to the number of rows with the
count of its key.
-/
namespace Dodam.Sql
open Foundation Execution

structure DenseCountPlan where
  minKey : ℤ
  capacity : ℕ

/-- A number that fits into an unsigned type. -/
def checkedUnsigned (w : ℕ) (x : ℤ) : Option ℕ := if 0 ≤ x ∧ x < 2 ^ w then some x.toNat else none

namespace DenseCountPlan

/-- `from_ranges`; whether the capacity is small enough for the rows is decided on floating-point numbers. -/
def fromRanges (ranges : List PrimitiveRowGroupMinMax) (maxBytes : ℕ) (withinAmplification : ℕ → ℕ → Bool) :
    Option DenseCountPlan := do
  let minKey ← (ranges.map PrimitiveRowGroupMinMax.min).min?
  let maxKey ← (ranges.map PrimitiveRowGroupMinMax.max).max?
  let rows ← ranges.foldlM (fun rows range => checkedUnsigned 128 (rows + range.rows : ℕ)) 0
  let span ← checkedSigned 128 (maxKey - minKey)
  let span ← checkedSigned 128 (span + 1)
  let capacity ← checkedUnsigned 64 span
  let bytes ← checkedUnsigned 64 (capacity * 4 : ℕ)
  let liveBytes ← checkedUnsigned 64 (bytes * 2 : ℕ)
  if capacity = 0 ∨ maxBytes < liveBytes ∨ withinAmplification capacity rows = false then none
  else (checkedSigned 64 minKey).map fun minKey => ⟨minKey,capacity⟩

def index (plan : DenseCountPlan) (key : ℤ) : Option ℕ :=
  if plan.minKey ≤ key ∧ key < plan.minKey + plan.capacity then some (key - plan.minKey).toNat else none

end DenseCountPlan

structure DenseCounts where
  plan : DenseCountPlan
  values : List ℕ

namespace DenseCounts

def new (plan : DenseCountPlan) : DenseCounts := ⟨plan,List.replicate plan.capacity 0⟩

def increment (counts : DenseCounts) (key : ℤ) : Result DenseCounts :=
  match counts.plan.index key with
  | none => unsupportedSql "dense count key exceeds metadata range"
  | some index =>
    match counts.values[index]? with
    | none => .error .panicked
    | some value =>
      if value + 1 < 2 ^ 32 then .ok { counts with values := counts.values.set index (value + 1) }
      else invalidFilter "dense count overflow"

def get (counts : DenseCounts) (key : ℤ) : ℕ := ((counts.plan.index key).bind fun index => counts.values[index]?).getD 0

end DenseCounts

/-- The rows with a true verdict, when there is one for each row. -/
def filterRows {ρ : Type*} (verdict : ρ → Result Bool) : List ρ → Result (List ρ)
  | [] => .ok []
  | row :: rows => (verdict row).bind fun passes => (filterRows verdict rows).map fun rest =>
      if passes then row :: rest else rest

/-- A key column: 64-bit integers, or values of any other type. -/
inductive JoinKeyColumn (ρ κ : Type*)
  | int64 (value : ρ → Option ℤ)
  | other (value : ρ → Option κ)

structure LeftTable (L κ : Type*) where
  batches : List (List L)
  key : JoinKeyColumn L κ

/-- The right table: the batches that a scan gives, the views of its row groups where they are read in parallel, and
the order in which the threads then add their keys. The counted column is valid where the key is when they are one
column, and everywhere when the file says that it has no NULLs. -/
structure RightTable (R κ : Type*) where
  batches : List (List R)
  rowGroupViews : Option (List (List R))
  schedule : List ℤ → List ℤ
  key : JoinKeyColumn R κ
  counted : R → Bool
  countColumnIsKey : Bool
  countColumnNonNullable : Bool
  text : String → R → Option String
  condition : Expr → R → Result (Option Bool)
  views_perm : ∀ views, rowGroupViews = some views → views.flatten.Perm batches.flatten
  schedule_perm : ∀ keys, (schedule keys).Perm keys
  counted_key : countColumnIsKey = true → ∀ value, key = .int64 value → ∀ row, counted row = (value row).isSome
  counted_nonNullable : countColumnNonNullable = true → ∀ row ∈ batches.flatten, counted row = true

/-- The settings of the environment, the limit on bytes and the statistics of the right key. -/
structure DenseCountSettings where
  ranges : Option (List PrimitiveRowGroupMinMax)
  maxBytes : ℕ
  withinAmplification : ℕ → ℕ → Bool
  fastLikeDistribution : Bool
  rowGroupMap : Bool

section Collect
variable {L R κ : Type*} (finder : Searcher UInt8) (tables : CaseTables) (settings : DenseCountSettings)

section Right
variable (right : RightTable R κ) (rightFilter : Option Expr)

/-- The filter is not given to the scan when it is made of LIKEs only. -/
def directFilter : Option Expr := rightFilter.filter exprIsLikeOnly

def fastLikeFilter : Option FastLikeSubstrings :=
  if settings.fastLikeDistribution then (directFilter rightFilter).bind fastLikeSubstringsFilter else none

def evalFilter : Option Expr := if (fastLikeFilter settings rightFilter).isNone then directFilter rightFilter else none

def RightTable.countColumnRequired : Bool := !right.countColumnIsKey && !right.countColumnNonNullable

/-- The truth value of a filter on a row, NULL where it is not true. -/
def RightTable.passes (filter : Option Expr) (row : R) : Result Bool :=
  match filter with
  | none => .ok true
  | some expr => (filterTruth finder tables right.text right.condition row expr).map (· == some true)

/-- The rows of the batches that the scan gives, with the filter it is given. -/
def RightTable.scan : Result (List (List R)) :=
  right.batches.mapM fun rows =>
    filterRows (right.passes finder tables (if (directFilter rightFilter).isSome then none else rightFilter)) rows

/-- `collect_dense_right_counts_fast_like_view`: the keys that a view adds. -/
def RightTable.viewKeys (value : R → Option ℤ) (filter : FastLikeSubstrings) (view : List R) : List ℤ :=
  let nonNull := view.all fun row => (value row).isSome && (right.text filter.column row).isSome
  (view.filter fun row => filter.rowMatches finder nonNull (right.text filter.column row)).filterMap value

/-- `collect_dense_right_counts_fast_like_row_group_map`. -/
def collectDenseRightCountsFastLikeRowGroupMap (filter : FastLikeSubstrings) (plan : DenseCountPlan) :
    Result (Option DenseCounts) :=
  match right.rowGroupViews,right.key with
  | some views,.int64 value =>
    ((right.schedule (views.flatMap (right.viewKeys finder value filter))).foldlM DenseCounts.increment (.new plan)).map some
  | _,_ => .ok none

/-- The loops of a batch without NULL keys whose rows only the substrings decide on. -/
def RightTable.nonNullKeys (value : R → Option ℤ) (filter : FastLikeSubstrings) (rows : List R) : List ℤ :=
  let nonNull := rows.all fun row => (right.text filter.column row).isSome
  (rows.filter fun row => filter.rowMatches finder nonNull (right.text filter.column row)).filterMap value

def RightTable.testedKeys (value : R → Option ℤ) (rows : List R) : Result (List ℤ) :=
  (filterRows (fun row => (right.passes finder tables (evalFilter settings rightFilter) row).map fun passes =>
    (fastLikeFilter settings rightFilter).all (fun filter =>
      fastLikeSubstringsRowMatches finder filter (right.text filter.column row)) &&
    passes && (!right.countColumnRequired || right.counted row)) rows).map (List.filterMap value)

def RightTable.batchKeys (value : R → Option ℤ) (rows : List R) : Result (List ℤ) :=
  match (evalFilter settings rightFilter).isNone && !right.countColumnRequired && rows.all fun row => (value row).isSome,
      fastLikeFilter settings rightFilter with
  | true,some filter => .ok (right.nonNullKeys finder value filter rows)
  | _,_ => right.testedKeys finder tables settings rightFilter value rows

/-- The loop over the batches of `collect_dense_right_counts`, which gives up on keys of other types. -/
def collectBatches : List (List R) → DenseCounts → Result (Option DenseCounts)
  | [],counts => .ok (some counts)
  | rows :: batches,counts =>
    match right.key with
    | .other _ => .ok none
    | .int64 value => do
      let keys ← right.batchKeys finder tables settings rightFilter value rows
      let counts ← keys.foldlM DenseCounts.increment counts
      collectBatches batches counts

def collectDenseRightCountsSequential (plan : DenseCountPlan) : Result (Option DenseCounts) :=
  (right.scan finder tables rightFilter).bind fun batches =>
    collectBatches finder tables settings right rightFilter batches (.new plan)

def collectDenseRightCounts : Result (Option DenseCounts) :=
  match settings.ranges.bind fun ranges => DenseCountPlan.fromRanges ranges settings.maxBytes settings.withinAmplification with
  | none => .ok none
  | some plan =>
    match settings.rowGroupMap && !right.countColumnRequired && (evalFilter settings rightFilter).isNone,
        fastLikeFilter settings rightFilter with
    | true,some filter =>
      (collectDenseRightCountsFastLikeRowGroupMap finder right filter plan).bind fun
        | some counts => .ok (some counts)
        | none => collectDenseRightCountsSequential finder tables settings right rightFilter plan
    | _,_ => collectDenseRightCountsSequential finder tables settings right rightFilter plan

end Right

section Left

/-- One more row with the count, in a list that grows when it has to. -/
def addRow (distribution : List ℕ) (count : ℕ) : List ℕ :=
  (distribution ++ List.replicate (count + 1 - distribution.length) 0).modify count (· + 1)

/-- The groups of a distribution: the counts that rows have, with the numbers of these rows. -/
def distributionGroups (distribution : List ℕ) : List (ℕ × ℕ) :=
  (distribution.zipIdx.filter fun entry => 0 < entry.1).map fun entry => (entry.2,entry.1)

/-- `collect_left_count_distribution`; a batch whose keys are no 64-bit integers ends it without any group. -/
def collectLeftCountDistribution (left : LeftTable L κ) (counts : DenseCounts) : List (ℕ × ℕ) :=
  match left.batches,left.key with
  | _ :: _,.other _ => []
  | batches,.int64 value => distributionGroups (batches.foldl (fun distribution rows =>
      rows.foldl (fun distribution row => addRow distribution (match value row with
        | some key => counts.get key
        | none => 0)) distribution) [])
  | [],.other _ => distributionGroups []

end Left

end Collect

section Output

/-- The columns of the output: the count that is grouped by, and the number of its rows. -/
inductive OutputColumn
  | count
  | rows

def OutputColumn.value : OutputColumn → ℕ × ℕ → ℕ
  | count,entry => entry.1
  | rows,entry => entry.2

structure OutputSort where
  column : OutputColumn
  descending : Bool
  nullsFirst : Bool

/-- Comparing two groups by one key; there are no NULLs among them. -/
def OutputSort.compare (sort : OutputSort) (a b : ℕ × ℕ) : Ordering :=
  let ordering := Ord.compare (sort.column.value a) (sort.column.value b)
  if sort.descending then ordering.swap else ordering

def compareGroups : List OutputSort → ℕ × ℕ → ℕ × ℕ → Ordering
  | [],_,_ => .eq
  | sort :: order,a,b => (sort.compare a b).then (compareGroups order a b)

def SortedBy (order : List OutputSort) (groups : List (ℕ × ℕ)) : Prop :=
  groups.Pairwise fun a b => (compareGroups order a b).isLE = true

/-- Sorting by several keys, as the arrow kernel does it: rows that compare equal come in any order. -/
structure LexSort where
  sort : List OutputSort → List (ℕ × ℕ) → List (ℕ × ℕ)
  perm : ∀ order groups, (sort order groups).Perm groups
  sorted : ∀ order groups, SortedBy order (sort order groups)

def limitRows (limit : Option ℕ) (groups : List (ℕ × ℕ)) : List (ℕ × ℕ) :=
  match limit with
  | none => groups
  | some limit => groups.take limit

/-- `sort_output_batch` on a batch of two columns of unsigned integers: up to four keys are sorted with the row index as
the last one when only a part of the rows is asked for. -/
def sortOutputBatch (lexSort : LexSort) (primitivePartialSort : Bool) (order : List OutputSort) (limit : Option ℕ)
    (groups : List (ℕ × ℕ)) : List (ℕ × ℕ) :=
  match limit with
  | none => lexSort.sort order groups
  | some limit =>
    if primitivePartialSort = true ∧ 0 < limit ∧ limit < groups.length ∧ order.length ≤ 4 ∧
        order.all (fun sort => !sort.nullsFirst) = true then
      (groups.mergeSort fun a b => (compareGroups order a b).isLE).take limit
    else (lexSort.sort order groups).take limit

/-- `apply_output_order_limit` without an offset, on one batch. -/
def applyOutputOrderLimit (lexSort : LexSort) (primitivePartialSort : Bool) (orderBy : Option (List OutputSort))
    (limit : Option ℕ) (groups : List (ℕ × ℕ)) : List (ℕ × ℕ) :=
  match orderBy with
  | none => limitRows limit groups
  | some order => limitRows limit (sortOutputBatch lexSort primitivePartialSort order limit groups)

end Output

end Dodam.Sql

/-! ## What the dense counts are

The array holds for each key the number of right rows that pass the filter and have a
value in the counted column, and the distribution holds for each count the number of
left rows whose key has it.
-/
namespace Dodam.Sql
open Foundation Execution

namespace DenseCounts
variable {counts counts' : DenseCounts} {key : ℤ}

theorem index_inj {plan : DenseCountPlan} {a b : ℤ} {i : ℕ} (ha : plan.index a = some i) (hb : plan.index b = some i) : a = b := by
  unfold DenseCountPlan.index at ha hb
  split_ifs at ha hb with hina hinb
  have hcast : (a - plan.minKey).toNat = (b - plan.minKey).toNat := (Option.some.inj ha).trans (Option.some.inj hb).symm
  omega

/-- One more occurrence of a key, and no other changes. -/
theorem increment_get (h : counts.increment key = .ok counts') (k : ℤ) :
    counts'.get k = counts.get k + if k = key then 1 else 0 := by
  unfold increment at h
  cases hindex : counts.plan.index key with
  | none =>
    rw [hindex] at h
    cases h
  | some i =>
    rw [hindex] at h
    dsimp only at h
    cases hvalue : counts.values[i]? with
    | none =>
      rw [hvalue] at h
      cases h
    | some value =>
      rw [hvalue] at h
      dsimp only at h
      split_ifs at h with hroom
      · cases h
        have hlt : i < counts.values.length := (List.getElem?_eq_some_iff.mp hvalue).1
        unfold get
        by_cases hk : k = key
        · subst hk
          rw [hindex,if_pos rfl,Option.bind_some,Option.bind_some,List.getElem?_set_self hlt,hvalue]
          rfl
        · rw [if_neg hk]
          cases hother : counts.plan.index k with
          | none => rfl
          | some j =>
            have hne : i ≠ j := by
              rintro rfl
              exact hk (index_inj hother hindex)
            rw [Option.bind_some,Option.bind_some,List.getElem?_set_ne hne]
            rfl
      · cases h

theorem foldlM_increment_get {keys : List ℤ} (h : keys.foldlM increment counts = .ok counts') (k : ℤ) :
    counts'.get k = counts.get k + keys.count k := by
  induction keys generalizing counts with
  | nil =>
    cases h
    simp
  | cons key keys ih =>
    rw [List.foldlM_cons] at h
    obtain ⟨next,hnext,h⟩ := bind_eq_ok_iff.mp h
    rw [ih h,increment_get hnext,List.count_cons,Nat.add_assoc,Nat.add_comm (keys.count k)]
    by_cases hk : k = key
    · simp [hk]
    · simp [hk,Ne.symm hk]

theorem new_get (plan : DenseCountPlan) (k : ℤ) : (DenseCounts.new plan).get k = 0 := by
  unfold get DenseCounts.new
  cases plan.index k with
  | none => rfl
  | some i =>
    rw [Option.bind_some,List.getElem?_replicate]
    split_ifs <;> rfl

theorem count_of_new {plan : DenseCountPlan} {keys : List ℤ} (h : keys.foldlM increment (DenseCounts.new plan) = .ok counts) (k : ℤ) :
    counts.get k = keys.count k := by
  rw [foldlM_increment_get h,new_get,Nat.zero_add]

end DenseCounts

section Filter
variable {ρ : Type*} {rows kept : List ρ} {verdict : ρ → Result Bool}

theorem filterRows_ok (h : filterRows verdict rows = .ok kept) {p : ρ → Bool} (hp : ∀ row ∈ rows, ∀ b, verdict row = .ok b → b = p row) :
    kept = rows.filter p := by
  induction rows generalizing kept with
  | nil =>
    cases h
    rfl
  | cons row rows ih =>
    obtain ⟨passes,hpasses,h⟩ := bind_eq_ok_iff.mp h
    obtain ⟨rest,hrest,rfl⟩ := map_eq_ok_iff.mp h
    obtain rfl := hp row List.mem_cons_self passes hpasses
    rw [ih hrest fun row hrow => hp row (List.mem_cons_of_mem _ hrow),List.filter_cons]

theorem filterMap_filter_and {value : ρ → Option ℤ} {p q : ρ → Bool} (h : ∀ row ∈ rows, (value row).isSome → q row = true) :
    (rows.filter fun row => p row && q row).filterMap value = (rows.filter p).filterMap value := by
  induction rows with
  | nil => rfl
  | cons row rows ih =>
    have hrest := ih fun row hrow => h row (List.mem_cons_of_mem _ hrow)
    cases hp : p row with
    | false => simpa [List.filter_cons,hp] using hrest
    | true =>
      cases hq : q row with
      | true =>
        rw [List.filter_cons_of_pos (by rw [hp,hq]; rfl),List.filter_cons_of_pos hp,List.filterMap_cons,List.filterMap_cons,hrest]
      | false =>
        have hnone : value row = none := by
          cases hvalue : value row with
          | none => rfl
          | some key =>
            have hcontra := h row List.mem_cons_self (by rw [hvalue]; rfl)
            rw [hq] at hcontra
            cases hcontra
        simpa [List.filter_cons,hp,hq,List.filterMap_cons,hnone] using hrest

end Filter

section Right
variable {R κ : Type*} (finder : Searcher UInt8) (tables : CaseTables) {settings : DenseCountSettings} {right : RightTable R κ}
  {rightFilter : Option Expr} {value : R → Option ℤ} {counts : DenseCounts}

def RightTable.holds (right : RightTable R κ) (rightFilter : Option Expr) (row : R) : Bool :=
  match right.passes finder tables rightFilter row with
  | .ok passes => passes
  | .error _ => false

def RightTable.countedKeys (right : RightTable R κ) (rightFilter : Option Expr) (value : R → Option ℤ) (rows : List R) : List ℤ :=
  (rows.filter fun row => right.holds finder tables rightFilter row && right.counted row).filterMap value

variable {finder tables}

theorem holds_of_ok {row : R} {b : Bool} (h : right.passes finder tables rightFilter row = .ok b) :
    b = right.holds finder tables rightFilter row := by
  unfold RightTable.holds
  rw [h]

theorem counted_of_not_required (hrequired : right.countColumnRequired = false) (hkey : right.key = .int64 value) {row : R}
    (hrow : row ∈ right.batches.flatten) (hvalue : (value row).isSome) : right.counted row = true := by
  unfold RightTable.countColumnRequired at hrequired
  rw [Bool.and_eq_false_iff,Bool.not_eq_false',Bool.not_eq_false'] at hrequired
  rcases hrequired with hsame | hvalid
  · rw [right.counted_key hsame value hkey row,hvalue]
  · exact right.counted_nonNullable hvalid row hrow

variable {filter : FastLikeSubstrings}

theorem fastLikeFilter_some (h : fastLikeFilter settings rightFilter = some filter) :
    ∃ expr, rightFilter = some expr ∧ exprIsLikeOnly expr = true ∧ fastLikeSubstringsFilter expr = some filter := by
  unfold fastLikeFilter at h
  split_ifs at h
  obtain ⟨expr,hdirect,hfilter⟩ := Option.bind_eq_some_iff.mp h
  obtain ⟨hexpr,honly⟩ := Option.filter_eq_some_iff.mp hdirect
  exact ⟨expr,hexpr,honly,hfilter⟩

theorem rowMatches_eq_holds (h : fastLikeFilter settings rightFilter = some filter) {nonNull : Bool}
    {row : R} (hnonNull : nonNull = true → (right.text filter.column row).isSome) :
    filter.rowMatches finder nonNull (right.text filter.column row) = right.holds finder tables rightFilter row := by
  obtain ⟨expr,rfl,-,hfilter⟩ := fastLikeFilter_some h
  have htruth : filterTruth finder tables right.text right.condition row expr = _ :=
    filterTruth_substrings tables right.condition hfilter
  rw [rowMatches_eq hnonNull]
  unfold RightTable.holds RightTable.passes
  dsimp only
  rw [htruth]
  cases right.text filter.column row with
  | none => rfl
  | some value => cases hfind : findParts finder filter.negated filter.parts (bytesOf value) <;> simp [Except.map,hfind]

theorem matches_eq_holds (h : fastLikeFilter settings rightFilter = some filter) (row : R) :
    fastLikeSubstringsRowMatches finder filter (right.text filter.column row) = right.holds finder tables rightFilter row := by
  have hnever : false = true → (right.text filter.column row).isSome := fun hfalse => absurd hfalse Bool.false_ne_true
  rw [← rowMatches_eq_holds h hnever,rowMatches_eq hnever]
  cases right.text filter.column row <;> rfl

theorem viewKeys_eq (h : fastLikeFilter settings rightFilter = some filter)
    (hrequired : right.countColumnRequired = false) (hkey : right.key = .int64 value) {view : List R}
    (hview : ∀ row ∈ view, row ∈ right.batches.flatten) :
    right.viewKeys finder value filter view = right.countedKeys finder tables rightFilter value view := by
  unfold RightTable.viewKeys RightTable.countedKeys
  rw [filterMap_filter_and fun row hrow => counted_of_not_required hrequired hkey (hview row hrow)]
  apply congrArg (List.filterMap value)
  apply List.filter_congr
  intro row hrow
  apply rowMatches_eq_holds h
  intro hall
  exact (Bool.and_eq_true_iff.mp (List.all_eq_true.mp hall row hrow)).2

@[simp] theorem holds_none (row : R) : right.holds finder tables none row = true := rfl

theorem tested_eq_holds {expr : Expr} (hdirect : directFilter rightFilter = some expr) (row : R) :
    ((fastLikeFilter settings rightFilter).all (fun filter =>
        fastLikeSubstringsRowMatches finder filter (right.text filter.column row)) &&
      right.holds finder tables (evalFilter settings rightFilter) row) = right.holds finder tables rightFilter row := by
  have hexpr : rightFilter = some expr := (Option.filter_eq_some_iff.mp hdirect).1
  cases hfast : fastLikeFilter settings rightFilter with
  | some filter =>
    have heval : evalFilter settings rightFilter = none := by
      unfold evalFilter
      rw [hfast]
      rfl
    rw [heval,holds_none,Bool.and_true,Option.all_some]
    exact matches_eq_holds hfast row
  | none =>
    have heval : evalFilter settings rightFilter = rightFilter := by
      unfold evalFilter
      rw [hfast,hdirect,hexpr]
      rfl
    rw [heval,Option.all_none,Bool.true_and]

theorem tested_eq_true (hdirect : directFilter rightFilter = none) (row : R) :
    ((fastLikeFilter settings rightFilter).all (fun filter =>
        fastLikeSubstringsRowMatches finder filter (right.text filter.column row)) &&
      right.holds finder tables (evalFilter settings rightFilter) row) = true := by
  have hfast : fastLikeFilter settings rightFilter = none := by
    unfold fastLikeFilter
    rw [hdirect]
    split_ifs <;> rfl
  have heval : evalFilter settings rightFilter = none := by
    unfold evalFilter
    rw [hfast,hdirect]
    rfl
  rw [hfast,heval]
  rfl

theorem testedKeys_ok {rows : List R} {keys : List ℤ} (h : right.testedKeys finder tables settings rightFilter value rows = .ok keys) :
    keys = (rows.filter fun row => ((fastLikeFilter settings rightFilter).all (fun filter =>
        fastLikeSubstringsRowMatches finder filter (right.text filter.column row)) &&
      right.holds finder tables (evalFilter settings rightFilter) row) &&
      (!right.countColumnRequired || right.counted row)).filterMap value := by
  obtain ⟨kept,hkept,rfl⟩ := map_eq_ok_iff.mp h
  apply congrArg (List.filterMap value)
  apply filterRows_ok hkept
  intro row _ b hb
  obtain ⟨passes,hpasses,rfl⟩ := map_eq_ok_iff.mp hb
  rw [holds_of_ok hpasses]

theorem filterMap_counted (hkey : right.key = .int64 value) {rows : List R} (hrows : ∀ row ∈ rows, row ∈ right.batches.flatten)
    (p : R → Bool) : (rows.filter fun row => p row && (!right.countColumnRequired || right.counted row)).filterMap value =
      (rows.filter fun row => p row && right.counted row).filterMap value := by
  cases hrequired : right.countColumnRequired with
  | true => simp
  | false =>
    rw [filterMap_filter_and fun row hrow => counted_of_not_required hrequired hkey (hrows row hrow)]
    simp

/-- The rows that are scanned, and the verdict that is left to the loop, make up the filter. -/
theorem batchKeys_eq {rows scanned : List R} {keys : List ℤ} (hkey : right.key = .int64 value)
    (hrows : ∀ row ∈ rows, row ∈ right.batches.flatten)
    (hscan : filterRows (right.passes finder tables (if (directFilter rightFilter).isSome then none else rightFilter)) rows =
      .ok scanned)
    (h : right.batchKeys finder tables settings rightFilter value scanned = .ok keys) :
    keys = right.countedKeys finder tables rightFilter value rows := by
  have hscanned := filterRows_ok hscan fun row _ b hb => holds_of_ok hb
  unfold RightTable.countedKeys
  rw [← filterMap_counted hkey hrows]
  cases hdirect : directFilter rightFilter with
  | none =>
    rw [hdirect,Option.isSome_none,if_neg Bool.false_ne_true] at hscanned
    have htested : right.testedKeys finder tables settings rightFilter value scanned = .ok keys := by
      unfold RightTable.batchKeys at h
      split at h
      · next hfast =>
        obtain ⟨expr,hexpr,honly,-⟩ := fastLikeFilter_some hfast
        rw [directFilter,hexpr,Option.filter_some,if_pos honly] at hdirect
        cases hdirect
      · exact h
    rw [testedKeys_ok htested,hscanned,List.filter_filter]
    simp only [tested_eq_true hdirect,Bool.true_and]
    simp only [Bool.and_comm]
  | some expr =>
    rw [hdirect,Option.isSome_some,if_pos rfl] at hscanned
    have hsame : scanned = rows := by simpa using hscanned
    rw [hsame] at h
    unfold RightTable.batchKeys at h
    split at h
    · next hplain hfast =>
      cases h
      obtain ⟨hplain,-⟩ := Bool.and_eq_true_iff.mp hplain
      obtain ⟨-,hrequired⟩ := Bool.and_eq_true_iff.mp hplain
      rw [hrequired]
      simp only [Bool.true_or,Bool.and_true]
      apply congrArg (List.filterMap value)
      apply List.filter_congr
      intro row hrow
      apply rowMatches_eq_holds hfast
      intro hstrings
      exact List.all_eq_true.mp hstrings row hrow
    · rw [testedKeys_ok h]
      simp only [tested_eq_holds hdirect]

theorem countedKeys_append (a b : List R) : right.countedKeys finder tables rightFilter value (a ++ b) =
    right.countedKeys finder tables rightFilter value a ++ right.countedKeys finder tables rightFilter value b := by
  unfold RightTable.countedKeys
  rw [List.filter_append,List.filterMap_append]

theorem countedKeys_flatMap (batches : List (List R)) :
    batches.flatMap (right.countedKeys finder tables rightFilter value) = right.countedKeys finder tables rightFilter value batches.flatten := by
  induction batches with
  | nil => rfl
  | cons rows batches ih => rw [List.flatMap_cons,List.flatten_cons,countedKeys_append,ih]

theorem collectBatches_get (hkey : right.key = .int64 value) {batches scanned : List (List R)} {start : DenseCounts}
    (hbatches : ∀ rows ∈ batches, ∀ row ∈ rows, row ∈ right.batches.flatten)
    (hscan : batches.mapM (fun rows =>
      filterRows (right.passes finder tables (if (directFilter rightFilter).isSome then none else rightFilter)) rows) = .ok scanned)
    (h : collectBatches finder tables settings right rightFilter scanned start = .ok (some counts)) (k : ℤ) :
    counts.get k = start.get k + (right.countedKeys finder tables rightFilter value batches.flatten).count k := by
  induction batches generalizing scanned start with
  | nil =>
    cases hscan
    cases h
    rfl
  | cons rows batches ih =>
    obtain ⟨first,rest,hfirst,hrest,rfl⟩ : ∃ first rest, filterRows (right.passes finder tables
        (if (directFilter rightFilter).isSome then none else rightFilter)) rows = .ok first ∧ batches.mapM (fun rows =>
          filterRows (right.passes finder tables (if (directFilter rightFilter).isSome then none else rightFilter)) rows) = .ok rest ∧
        scanned = first :: rest := by
      rw [mapM_ok_iff] at hscan
      cases hscan with
      | cons hfirst hrest => exact ⟨_,_,hfirst,mapM_ok_iff.mpr hrest,rfl⟩
    unfold collectBatches at h
    rw [hkey] at h
    obtain ⟨keys,hkeys,h⟩ := bind_eq_ok_iff.mp h
    obtain ⟨next,hnext,h⟩ := bind_eq_ok_iff.mp h
    have hcounted := batchKeys_eq hkey (hbatches rows List.mem_cons_self) hfirst hkeys
    rw [ih (fun rows hrows => hbatches rows (List.mem_cons_of_mem _ hrows)) hrest h,DenseCounts.foldlM_increment_get hnext,
      hcounted,List.flatten_cons,countedKeys_append,List.count_append,Nat.add_assoc]

theorem rowGroupMap_get {plan : DenseCountPlan} (hkey : right.key = .int64 value)
    (hfast : fastLikeFilter settings rightFilter = some filter) (hrequired : right.countColumnRequired = false)
    (h : collectDenseRightCountsFastLikeRowGroupMap finder right filter plan = .ok (some counts)) (k : ℤ) :
    counts.get k = (right.countedKeys finder tables rightFilter value right.batches.flatten).count k := by
  unfold collectDenseRightCountsFastLikeRowGroupMap at h
  rw [hkey] at h
  cases hviews : right.rowGroupViews with
  | none =>
    rw [hviews] at h
    cases h
  | some views =>
    rw [hviews] at h
    obtain ⟨_,hfold,heq⟩ := map_eq_ok_iff.mp h
    obtain rfl := Option.some.inj heq
    have hperm := right.views_perm views hviews
    have hkeys : views.flatMap (right.viewKeys finder value filter) = right.countedKeys finder tables rightFilter value views.flatten := by
      rw [← countedKeys_flatMap]
      apply List.flatMap_congr
      intro view hview
      apply viewKeys_eq hfast hrequired hkey
      intro row hrow
      exact hperm.mem_iff.mp (List.mem_flatten.mpr ⟨view,hview,hrow⟩)
    rw [DenseCounts.count_of_new hfold,(right.schedule_perm _).count_eq,hkeys]
    exact ((hperm.filter _).filterMap value).count_eq k

theorem count_countedKeys (k : ℤ) (rows : List R) : (right.countedKeys finder tables rightFilter value rows).count k =
    rows.countP fun row => right.holds finder tables rightFilter row && right.counted row && value row == some k := by
  unfold RightTable.countedKeys
  induction rows with
  | nil => rfl
  | cons row rows ih =>
    rw [List.filter_cons,List.countP_cons]
    cases hpass : right.holds finder tables rightFilter row && right.counted row with
    | false => simpa [hpass] using ih
    | true =>
      rw [if_pos rfl,List.filterMap_cons,Bool.true_and]
      cases hvalue : value row with
      | none => simpa using ih
      | some key =>
        rw [List.count_cons,ih]
        simp

variable (finder tables) in
/-- The number of right rows with a key that pass the filter and are counted; other keys are only accepted where there
is no batch to read. -/
def RightTable.CountsHold (right : RightTable R κ) (rightFilter : Option Expr) (counts : DenseCounts) : Prop :=
  match right.key with
  | .int64 value => ∀ k, counts.get k = right.batches.flatten.countP fun row =>
      right.holds finder tables rightFilter row && right.counted row && value row == some k
  | .other _ => right.batches = [] ∧ ∀ k, counts.get k = 0

theorem sequential_countsHold {plan : DenseCountPlan}
    (h : collectDenseRightCountsSequential finder tables settings right rightFilter plan = .ok (some counts)) :
    right.CountsHold finder tables rightFilter counts := by
  obtain ⟨scanned,hscan,hcollect⟩ := bind_eq_ok_iff.mp h
  unfold RightTable.CountsHold
  cases hkey : right.key with
  | int64 value =>
    intro k
    have hrows : ∀ rows ∈ right.batches, ∀ row ∈ rows, row ∈ right.batches.flatten := fun rows hrows row hrow =>
      List.mem_flatten.mpr ⟨rows,hrows,hrow⟩
    rw [collectBatches_get hkey hrows hscan hcollect k,DenseCounts.new_get,Nat.zero_add]
    exact count_countedKeys k _
  | other value =>
    cases scanned with
    | nil =>
      cases hcollect
      rw [RightTable.scan,mapM_ok_iff] at hscan
      exact ⟨List.forall₂_nil_right_iff.mp hscan,DenseCounts.new_get plan⟩
    | cons rows scanned =>
      unfold collectBatches at hcollect
      rw [hkey] at hcollect
      cases hcollect

theorem collectDenseRightCounts_countsHold
    (h : collectDenseRightCounts finder tables settings right rightFilter = .ok (some counts)) :
    right.CountsHold finder tables rightFilter counts := by
  unfold collectDenseRightCounts at h
  split at h
  · cases h
  · next plan _ =>
    split at h
    · next hmap hfast =>
      obtain ⟨answer,hanswer,h⟩ := bind_eq_ok_iff.mp h
      cases answer with
      | none => exact sequential_countsHold h
      | some answer =>
        cases h
        unfold RightTable.CountsHold
        cases hkey : right.key with
        | int64 value =>
          intro k
          obtain ⟨hmap,-⟩ := Bool.and_eq_true_iff.mp hmap
          obtain ⟨-,hrequired⟩ := Bool.and_eq_true_iff.mp hmap
          have hget : counts.get k = (right.countedKeys finder tables rightFilter value right.batches.flatten).count k :=
            rowGroupMap_get hkey hfast (by simpa using hrequired) hanswer k
          rw [hget]
          exact count_countedKeys k _
        | other value =>
          unfold collectDenseRightCountsFastLikeRowGroupMap at hanswer
          rw [hkey] at hanswer
          cases hviews : right.rowGroupViews with
          | none =>
            rw [hviews] at hanswer
            cases hanswer
          | some views =>
            rw [hviews] at hanswer
            cases hanswer
    · exact sequential_countsHold h

end Right

section Left
variable {L κ : Type*}

theorem getD_addRow (distribution : List ℕ) (count i : ℕ) :
    (addRow distribution count).getD i 0 = distribution.getD i 0 + if i = count then 1 else 0 := by
  have hpadded : ∀ i, (distribution ++ List.replicate (count + 1 - distribution.length) 0).getD i 0 = distribution.getD i 0 := by
    intro i
    by_cases hlt : i < distribution.length
    · rw [List.getD_append _ _ _ _ hlt]
    · rw [List.getD_append_right _ _ _ _ (by omega),List.getD_eq_default distribution 0 (by omega)]
      rw [List.getD_eq_getElem?_getD,List.getElem?_replicate]
      split_ifs <;> rfl
  unfold addRow
  rw [← hpadded i]
  generalize hlist : distribution ++ List.replicate (count + 1 - distribution.length) 0 = padded
  have hlength : count < padded.length := by
    rw [← hlist,List.length_append,List.length_replicate]
    omega
  rw [List.getD_eq_getElem?_getD,List.getD_eq_getElem?_getD,List.getElem?_modify]
  by_cases hi : i = count
  · subst hi
    rw [List.getElem?_eq_getElem hlength]
    simp
  · simp [hi,Ne.symm hi]

theorem getD_foldl_addRow (counts distribution : List ℕ) (i : ℕ) :
    (counts.foldl addRow distribution).getD i 0 = distribution.getD i 0 + counts.count i := by
  induction counts generalizing distribution with
  | nil => rfl
  | cons count counts ih =>
    rw [List.foldl_cons,ih,getD_addRow,List.count_cons,Nat.add_assoc,Nat.add_comm (counts.count i)]
    by_cases hi : i = count
    · simp [hi]
    · simp [hi,Ne.symm hi]

theorem mem_distributionGroups {distribution : List ℕ} {group : ℕ × ℕ} :
    group ∈ distributionGroups distribution ↔ 0 < group.2 ∧ distribution.getD group.1 0 = group.2 := by
  unfold distributionGroups
  rw [List.mem_map]
  constructor
  · rintro ⟨⟨rows,count⟩,hmem,rfl⟩
    obtain ⟨hmem,hpos⟩ := List.mem_filter.mp hmem
    have hget : distribution[count]? = some rows := List.mem_zipIdx_iff_getElem?.mp hmem
    refine ⟨of_decide_eq_true hpos,?_⟩
    rw [List.getD_eq_getElem?_getD,hget]
    rfl
  · rintro ⟨hpos,hget⟩
    refine ⟨(group.2,group.1),List.mem_filter.mpr ⟨?_,decide_eq_true hpos⟩,rfl⟩
    apply List.mem_zipIdx_iff_getElem?.mpr
    rw [List.getD_eq_getElem?_getD] at hget
    cases hentry : distribution[group.1]? with
    | none =>
      rw [hentry] at hget
      exact absurd hget hpos.ne
    | some rows =>
      rw [hentry] at hget
      exact congrArg some hget

theorem nodup_distributionGroups (distribution : List ℕ) : (distributionGroups distribution).Nodup := by
  have hindices : (distribution.zipIdx.map Prod.snd).Nodup := by
    rw [List.zipIdx_map_snd]
    exact List.nodup_range'
  apply List.Nodup.map
  · rintro ⟨a,i⟩ ⟨b,j⟩ h
    obtain ⟨rfl,rfl⟩ := Prod.mk.inj h
    rfl
  · exact (List.Nodup.of_map _ hindices).filter _

theorem distributionGroups_eq (counts : List ℕ) :
    (distributionGroups (counts.foldl addRow []) : Multiset (ℕ × ℕ)) = valueCounts (counts : Multiset ℕ) := by
  apply (Multiset.Nodup.ext (Multiset.coe_nodup.mpr (nodup_distributionGroups _)) (nodup_valueCounts _)).mpr
  intro group
  have hget : (counts.foldl addRow []).getD group.1 0 = counts.count group.1 := by
    rw [getD_foldl_addRow]
    simp
  rw [Multiset.mem_coe,mem_distributionGroups,mem_valueCounts,hget,Multiset.mem_coe,Multiset.coe_count]
  constructor
  · rintro ⟨hpos,hcount⟩
    exact ⟨List.count_pos_iff.mp (hcount ▸ hpos),hcount.symm⟩
  · rintro ⟨hmem,hcount⟩
    exact ⟨hcount ▸ List.count_pos_iff.mpr hmem,hcount.symm⟩

def rowCount (counts : DenseCounts) (value : L → Option ℤ) (row : L) : ℕ :=
  match value row with
  | some key => counts.get key
  | none => 0

theorem collectLeftCountDistribution_int64 {left : LeftTable L κ} {counts : DenseCounts} {value : L → Option ℤ}
    (hkey : left.key = .int64 value) : (collectLeftCountDistribution left counts : Multiset (ℕ × ℕ)) =
      valueCounts ((left.batches.flatten : Multiset L).map (rowCount counts value)) := by
  have hfold : ∀ (batches : List (List L)) (distribution : List ℕ),
      batches.foldl (fun distribution rows => rows.foldl (fun distribution row => addRow distribution (rowCount counts value row))
        distribution) distribution = (batches.flatten.map (rowCount counts value)).foldl addRow distribution := by
    intro batches
    induction batches with
    | nil => exact fun _ => rfl
    | cons rows batches ih =>
      intro distribution
      rw [List.foldl_cons,ih,List.flatten_cons,List.map_append,List.foldl_append]
      simp only [List.foldl_map]
  rw [Multiset.map_coe,← distributionGroups_eq,← hfold]
  unfold collectLeftCountDistribution
  rw [hkey]
  cases left.batches <;> rfl

theorem collectLeftCountDistribution_other {left : LeftTable L κ} {counts : DenseCounts} {value : L → Option κ}
    (hkey : left.key = .other value) : collectLeftCountDistribution left counts = [] := by
  unfold collectLeftCountDistribution
  rw [hkey]
  cases left.batches <;> rfl

end Left

end Dodam.Sql
