import Dodam.Foundation.ThetaJoin
import Dodam.Sql.DenseCount

/-! # The query behind a count distribution

The inner query joins, filters, and counts the non-NULL right values for each left key; the
outer one counts the inner groups for each of these counts, sorts, skips and cuts.
-/
namespace Dodam.Sql
open Foundation Execution

section Order

instance (sort : OutputSort) : Std.TransCmp sort.compare := by
  have hvalue : Std.TransCmp fun a b : ℕ × ℕ => Ord.compare (sort.column.value a) (sort.column.value b) :=
    inferInstanceAs (Std.TransCmp (compareOn sort.column.value))
  unfold OutputSort.compare
  cases sort.descending with
  | false => exact hvalue
  | true =>
    have hswap : (fun a b : ℕ × ℕ => (Ord.compare (sort.column.value a) (sort.column.value b)).swap) =
        fun a b => Ord.compare (sort.column.value b) (sort.column.value a) := by
      funext a b
      exact Std.OrientedCmp.eq_swap.symm
    simp only [if_true]
    rw [hswap]
    exact hvalue.opposite

theorem transCmp_eq : Std.TransCmp fun _ _ : ℕ × ℕ => Ordering.eq where
  eq_swap := rfl
  isLE_trans _ _ := rfl

instance transCmp_compareGroups : ∀ order : List OutputSort, Std.TransCmp (compareGroups order)
  | [] => transCmp_eq
  | sort :: order =>
    have := transCmp_compareGroups order
    inferInstanceAs (Std.TransCmp (compareLex sort.compare (compareGroups order)))

theorem sortedBy_mergeSort (order : List OutputSort) (groups : List (ℕ × ℕ)) :
    SortedBy order (groups.mergeSort fun a b => (compareGroups order a b).isLE) := by
  apply List.pairwise_mergeSort
  · intro a b c hab hbc
    exact Std.TransCmp.isLE_trans hab hbc
  · intro a b
    have hswap : compareGroups order b a = (compareGroups order a b).swap := Std.OrientedCmp.eq_swap
    rw [hswap]
    cases compareGroups order a b <;> rfl

theorem applyOutputOrderLimit_sorted (lexSort : LexSort) (primitivePartialSort : Bool) (orderBy : Option (List OutputSort))
    (limit : Option ℕ) (groups : List (ℕ × ℕ)) :
    ∃ rows, rows.Perm groups ∧ SortedBy (orderBy.getD []) rows ∧
      applyOutputOrderLimit lexSort primitivePartialSort orderBy limit groups = limitRows limit rows := by
  cases orderBy with
  | none =>
    refine ⟨groups,.rfl,?_,rfl⟩
    exact List.pairwise_of_forall fun _ _ => rfl
  | some order =>
    have hlex : SortedBy order (lexSort.sort order groups) := lexSort.sorted order groups
    cases limit with
    | none => exact ⟨_,lexSort.perm order groups,hlex,rfl⟩
    | some limit =>
      unfold applyOutputOrderLimit sortOutputBatch
      dsimp only
      split_ifs with hpartial
      · refine ⟨_,List.mergeSort_perm groups _,sortedBy_mergeSort order groups,?_⟩
        exact List.take_take.trans (congrArg (List.take · _) (Nat.min_self limit))
      · refine ⟨_,lexSort.perm order groups,hlex,?_⟩
        exact List.take_take.trans (congrArg (List.take · _) (Nat.min_self limit))

end Order

/-- Equality of join keys, which is that of integers on 64-bit integers. -/
structure KeyEquality (κ : Type*) where
  equal : ℤ ⊕ κ → ℤ ⊕ κ → Bool
  equal_int64 : ∀ a b : ℤ, equal (.inl a) (.inl b) = decide (a = b)

def JoinKeyColumn.cell {ρ κ : Type*} (column : JoinKeyColumn ρ κ) (row : ρ) : Option (ℤ ⊕ κ) :=
  match column with
  | .int64 value => (value row).map .inl
  | .other value => (value row).map .inr

/-- The query, with the clauses that its rewriting does not look at: the WHERE clause of the inner query where it is
evaluated as an expression, and the OFFSETs. -/
structure CountDistributionQuery (L R κ : Type*) where
  left : LeftTable L κ
  right : RightTable R κ
  equality : KeyEquality κ
  rightFilter : Option Expr
  expressionFilter : Option L × Option R → Bool
  innerOffset : ℕ
  orderBy : Option (List OutputSort)
  offset : ℕ

namespace CountDistributionQuery
variable {L R κ : Type*} (finder : Searcher UInt8) (tables : CaseTables) (settings : DenseCountSettings)
  (lexSort : LexSort) (primitivePartialSort : Bool) (query : CountDistributionQuery L R κ)

/-- `try_execute_derived_left_join_count_distribution_sql`, behind the tests on the shape of the query. -/
def tryExecute (limit : Option ℕ) : Result (Option (List (ℕ × ℕ))) :=
  (collectDenseRightCounts finder tables settings query.right query.rightFilter).map <| Option.map fun counts =>
    applyOutputOrderLimit lexSort primitivePartialSort query.orderBy limit (collectLeftCountDistribution query.left counts)

def leftRows : Multiset L := query.left.batches.flatten

def rightRows : Multiset R := query.right.batches.flatten

def leftKey (row : L) : Option (ℤ ⊕ κ) := query.left.key.cell row

/-- The ON condition: equal keys and a true filter. -/
def on (a : L) (b : R) : Bool :=
  (match query.left.key.cell a,query.right.key.cell b with
    | some x,some y => query.equality.equal x y
    | _,_ => false) && query.right.holds finder tables query.rightFilter b

def joined : Multiset (Option L × Option R) :=
  thetaJoin (fun a b => query.on finder tables a b = true) .left query.leftRows query.rightRows

def counted (pair : Option L × Option R) : Bool := pair.2.any query.right.counted

/-- No left key occurs twice, NULL neither, there are no OFFSETs, and the inner WHERE clause removes no row that counts
and leaves one row for each left row. -/
def KeepsAll : Prop :=
  (query.leftRows.map query.leftKey).Nodup ∧ query.offset = 0 ∧ query.innerOffset = 0 ∧
    (∀ pair ∈ query.joined finder tables, query.counted pair = true → query.expressionFilter pair = true) ∧
    ∀ a ∈ query.leftRows, ∃ pair ∈ query.joined finder tables, pair.1 = some a ∧ query.expressionFilter pair = true

variable [DecidableEq κ]

def innerCounts : Multiset ℕ :=
  groupCounts (fun pair => pair.1.bind query.leftKey) query.counted ((query.joined finder tables).filter (query.expressionFilter · = true))

def Leaves (kept : Multiset ℕ) : Prop :=
  kept ≤ query.innerCounts finder tables ∧ kept.card = (query.innerCounts finder tables).card - query.innerOffset

/-- A result of the query: inner groups counted by their counts, sorted, without the first ones, up to the limit. -/
def IsResult (limit : Option ℕ) (output : List (ℕ × ℕ)) : Prop :=
  ∃ kept, query.Leaves finder tables kept ∧ ∃ rows : List (ℕ × ℕ), (rows : Multiset (ℕ × ℕ)) = valueCounts kept ∧
    SortedBy (query.orderBy.getD []) rows ∧ output = limitRows limit (rows.drop query.offset)

def SkipsAll : Prop := ∃ kept, query.Leaves finder tables kept ∧ kept.dedup.card ≤ query.offset

/-- Where the dense counts answer the query: on 64-bit left keys when all is kept, or there are no left rows, and on other
left keys when there is no group to give. -/
def Answers : Prop :=
  match query.left.key with
  | .int64 _ => query.leftRows = 0 ∨ query.KeepsAll finder tables
  | .other _ => query.SkipsAll finder tables

end CountDistributionQuery
end Dodam.Sql

/-! ## When the dense counts answer the query

Each left row has the count that the join gives it, so the dense distribution is that of
the inner counts exactly when there is an inner group for each left row and no row that
counts is removed. The numbers of rows add up to the number of left rows on one side
and to that of the inner groups that are left on the other, so nothing may be skipped.
-/
namespace Dodam.Sql
open Foundation Execution
namespace CountDistributionQuery

section Counts
variable {L R κ : Type*} (finder : Searcher UInt8) (tables : CaseTables) (query : CountDistributionQuery L R κ)
  {counts : DenseCounts} {value : L → Option ℤ}

/-- What is left of a left row: its joined rows that pass the inner WHERE clause. -/
def made (a : L) : Multiset (Option L × Option R) :=
  (leftJoined (fun a b => query.on finder tables a b = true) query.rightRows a).filter (query.expressionFilter · = true)

theorem joined_eq_bind : query.joined finder tables =
    query.leftRows.bind (leftJoined (fun a b => query.on finder tables a b = true) query.rightRows) :=
  thetaJoin_left_eq_bind _ _ _

theorem innerCounts_eq [DecidableEq κ] : query.innerCounts finder tables =
    groupCounts (fun pair => pair.1.bind query.leftKey) query.counted (query.leftRows.bind (query.made finder tables)) := by
  unfold innerCounts
  rw [joined_eq_bind,Multiset.filter_bind]
  rfl

theorem key_made (a : L) : ∀ pair ∈ query.made finder tables a, pair.1.bind query.leftKey = query.leftKey a := by
  intro pair hpair
  rw [fst_of_mem_leftJoined _ (Multiset.mem_of_mem_filter hpair)]
  rfl

theorem card_counted (a : L) :
    ((leftJoined (fun a b => query.on finder tables a b = true) query.rightRows a).filter (query.counted · = true)).card =
      query.rightRows.countP fun b => query.on finder tables a b = true ∧ query.right.counted b = true := by
  unfold leftJoined
  split_ifs with h
  · rw [Multiset.filter_map,Multiset.card_map,Multiset.filter_filter,Multiset.countP_eq_card_filter]
    apply congrArg Multiset.card
    apply Multiset.filter_congr
    intro b _
    exact and_comm
  · have hnone : query.rightRows.countP (fun b => query.on finder tables a b = true ∧ query.right.counted b = true) = 0 := by
      apply Multiset.countP_eq_zero.mpr
      intro b hb hcounts
      exact h ⟨b,hb,hcounts.1⟩
    rw [hnone,Multiset.filter_singleton]
    rfl

variable {finder tables query}

theorem on_int64 {rightValue : R → Option ℤ} (hleft : query.left.key = .int64 value) (hright : query.right.key = .int64 rightValue)
    {a : L} {k : ℤ} (hvalue : value a = some k) (b : R) :
    query.on finder tables a b = (rightValue b == some k && query.right.holds finder tables query.rightFilter b) := by
  unfold on JoinKeyColumn.cell
  rw [hleft,hright]
  dsimp only
  rw [hvalue]
  cases rightValue b with
  | none => rfl
  | some key =>
    dsimp only [Option.map_some]
    rw [query.equality.equal_int64]
    apply congrArg (· && query.right.holds finder tables query.rightFilter b)
    rw [Bool.eq_iff_iff,decide_eq_true_iff,beq_iff_eq,Option.some_inj,eq_comm]

theorem on_null (hleft : query.left.key = .int64 value) {a : L} (hvalue : value a = none) (b : R) :
    query.on finder tables a b = false := by
  unfold on JoinKeyColumn.cell
  rw [hleft]
  dsimp only
  rw [hvalue]
  rfl

theorem rowCount_eq {settings : DenseCountSettings}
    (h : collectDenseRightCounts finder tables settings query.right query.rightFilter = .ok (some counts))
    (hkey : query.left.key = .int64 value) (a : L) :
    rowCount counts value a =
      ((leftJoined (fun a b => query.on finder tables a b = true) query.rightRows a).filter (query.counted · = true)).card := by
  rw [card_counted]
  have hholds := collectDenseRightCounts_countsHold h
  unfold RightTable.CountsHold at hholds
  unfold rowCount
  cases hvalue : value a with
  | none =>
    symm
    apply Multiset.countP_eq_zero.mpr
    rintro b - ⟨hon,-⟩
    rw [on_null hkey hvalue] at hon
    cases hon
  | some k =>
    dsimp only
    cases hright : query.right.key with
    | int64 rightValue =>
      rw [hright] at hholds
      rw [hholds k]
      unfold rightRows
      rw [Multiset.coe_countP]
      apply List.countP_congr
      intro b _
      simp only [on_int64 hkey hright hvalue,Bool.and_eq_true,decide_eq_true_eq,beq_iff_eq]
      tauto
    | other rightValue =>
      rw [hright] at hholds
      unfold rightRows
      rw [hholds.2 k,hholds.1]
      rfl

variable (finder tables query) in
theorem made_le (a : L) :
    query.made finder tables a ≤ leftJoined (fun a b => query.on finder tables a b = true) query.rightRows a :=
  Multiset.filter_le _ _

theorem card_made_eq_iff (a : L) : ((query.made finder tables a).filter (query.counted · = true)).card =
      ((leftJoined (fun a b => query.on finder tables a b = true) query.rightRows a).filter (query.counted · = true)).card ↔
    ∀ pair ∈ leftJoined (fun a b => query.on finder tables a b = true) query.rightRows a,
      query.counted pair = true → query.expressionFilter pair = true := by
  have hle := Multiset.filter_le_filter (query.counted · = true) (made_le finder tables query a)
  constructor
  · intro hcard pair hpair hcounted
    have heq := Multiset.eq_of_le_of_card_le hle hcard.ge
    have hmem : pair ∈ (query.made finder tables a).filter (query.counted · = true) := by
      rw [heq]
      exact Multiset.mem_filter.mpr ⟨hpair,hcounted⟩
    exact (Multiset.mem_filter.mp (Multiset.mem_of_mem_filter hmem)).2
  · intro hkept
    unfold made
    rw [Multiset.filter_filter]
    apply congrArg Multiset.card
    apply Multiset.filter_congr
    intro pair hpair
    exact and_iff_left_of_imp (hkept pair hpair)

theorem mem_joined {pair : Option L × Option R} : pair ∈ query.joined finder tables ↔
    ∃ a ∈ query.leftRows, pair ∈ leftJoined (fun a b => query.on finder tables a b = true) query.rightRows a := by
  rw [joined_eq_bind,Multiset.mem_bind]

theorem exists_joined {a : L} (ha : a ∈ query.leftRows) : ∃ pair ∈ query.joined finder tables, pair.1 = some a := by
  obtain ⟨pair,hpair⟩ := Multiset.exists_mem_of_ne_zero
    (leftJoined_ne_zero (fun a b => query.on finder tables a b = true) query.rightRows a)
  exact ⟨pair,mem_joined.mpr ⟨a,ha,hpair⟩,fst_of_mem_leftJoined _ hpair⟩

theorem made_ne_zero_iff {a : L} (ha : a ∈ query.leftRows) : query.made finder tables a ≠ 0 ↔
    ∃ pair ∈ query.joined finder tables, pair.1 = some a ∧ query.expressionFilter pair = true := by
  constructor
  · intro hne
    obtain ⟨pair,hpair⟩ := Multiset.exists_mem_of_ne_zero hne
    obtain ⟨hmem,hpass⟩ := Multiset.mem_filter.mp hpair
    exact ⟨pair,mem_joined.mpr ⟨a,ha,hmem⟩,fst_of_mem_leftJoined _ hmem,hpass⟩
  · rintro ⟨pair,hpair,hfst,hpass⟩ hzero
    obtain ⟨a',-,hmem⟩ := mem_joined.mp hpair
    obtain rfl : a' = a := Option.some.inj ((fst_of_mem_leftJoined _ hmem).symm.trans hfst)
    have hin : pair ∈ query.made finder tables a' := Multiset.mem_filter.mpr ⟨hmem,hpass⟩
    rw [hzero] at hin
    exact Multiset.notMem_zero _ hin

variable [DecidableEq κ]

variable (finder tables query) in
theorem card_innerCounts_le : (query.innerCounts finder tables).card ≤ query.leftRows.card := by
  rw [innerCounts_eq]
  exact card_groupCounts_le _ _ (query.key_made finder tables)

theorem innerCounts_eq_iff {settings : DenseCountSettings}
    (h : collectDenseRightCounts finder tables settings query.right query.rightFilter = .ok (some counts))
    (hkey : query.left.key = .int64 value) :
    query.innerCounts finder tables = query.leftRows.map (rowCount counts value) ↔ (query.leftRows.map query.leftKey).Nodup ∧
      (∀ pair ∈ query.joined finder tables, query.counted pair = true → query.expressionFilter pair = true) ∧
      ∀ a ∈ query.leftRows, ∃ pair ∈ query.joined finder tables, pair.1 = some a ∧ query.expressionFilter pair = true := by
  have hcount := rowCount_eq h hkey
  have hle : ∀ a ∈ query.leftRows, ((query.made finder tables a).filter (query.counted · = true)).card ≤ rowCount counts value a := by
    intro a _
    rw [hcount]
    exact Multiset.card_le_card (Multiset.filter_le_filter _ (made_le finder tables query a))
  rw [innerCounts_eq,groupCounts_eq_map_iff _ _ (query.key_made finder tables) hle]
  apply and_congr_right
  intro _
  constructor
  · intro hall
    refine ⟨?_,fun a ha => (made_ne_zero_iff ha).mp (hall a ha).1⟩
    intro pair hpair hcounted
    obtain ⟨a,ha,hmem⟩ := mem_joined.mp hpair
    have hcard := (hall a ha).2
    rw [hcount] at hcard
    exact (card_made_eq_iff a).mp hcard pair hmem hcounted
  · rintro ⟨hkept,hleft⟩ a ha
    refine ⟨(made_ne_zero_iff ha).mpr (hleft a ha),?_⟩
    rw [hcount,card_made_eq_iff]
    intro pair hmem
    exact hkept pair (mem_joined.mpr ⟨a,ha,hmem⟩)

end Counts

section Results
variable {L R κ : Type*} [DecidableEq κ] {finder : Searcher UInt8} {tables : CaseTables} {settings : DenseCountSettings}
  {query : CountDistributionQuery L R κ} {counts : DenseCounts}

@[simp] theorem limitRows_nil (limit : Option ℕ) : limitRows limit [] = [] := by
  cases limit <;> simp [limitRows]

theorem output_nil {lexSort : LexSort} {primitivePartialSort : Bool} {orderBy : Option (List OutputSort)} (limit : Option ℕ) :
    applyOutputOrderLimit lexSort primitivePartialSort orderBy limit [] = [] := by
  obtain ⟨rows,hperm,-,hout⟩ := applyOutputOrderLimit_sorted lexSort primitivePartialSort orderBy limit []
  rw [hout,hperm.eq_nil,limitRows_nil]

theorem drop_eq_zero {rows : List (ℕ × ℕ)} {n : ℕ} (hpos : ∀ row ∈ rows, 0 < row.2) (hsome : 0 < (rows.map Prod.snd).sum)
    (h : (rows.map Prod.snd).sum ≤ ((rows.drop n).map Prod.snd).sum) : n = 0 := by
  have hsplit : (rows.map Prod.snd).sum = ((rows.take n).map Prod.snd).sum + ((rows.drop n).map Prod.snd).sum := by
    rw [← List.sum_append,← List.map_append,List.take_append_drop]
  have htake : ((rows.take n).map Prod.snd).sum = 0 := by omega
  cases n with
  | zero => rfl
  | succ n =>
    cases rows with
    | nil => simp at hsome
    | cons row rows =>
      have hrow := hpos row List.mem_cons_self
      rw [List.take_succ_cons,List.map_cons,List.sum_cons] at htake
      omega

/-- On 64-bit keys, the sums of the rows leave no room for anything to be skipped. -/
theorem keepsAll_of_isResult {lexSort : LexSort} {primitivePartialSort : Bool} {value : L → Option ℤ}
    (h : collectDenseRightCounts finder tables settings query.right query.rightFilter = .ok (some counts))
    (hkey : query.left.key = .int64 value) (hleft : query.leftRows ≠ 0)
    (hresult : query.IsResult finder tables none (applyOutputOrderLimit lexSort primitivePartialSort query.orderBy none
      (collectLeftCountDistribution query.left counts))) : query.KeepsAll finder tables := by
  obtain ⟨kept,⟨hle,hcard⟩,rows,hrows,-,hout⟩ := hresult
  obtain ⟨output,hperm,-,houtput⟩ := applyOutputOrderLimit_sorted lexSort primitivePartialSort query.orderBy none
    (collectLeftCountDistribution query.left counts)
  have hgroups : ((rows.drop query.offset : List (ℕ × ℕ)) : Multiset (ℕ × ℕ)) =
      valueCounts (query.leftRows.map (rowCount counts value)) := by
    have hlist : rows.drop query.offset = output := hout.symm.trans houtput
    rw [hlist,Multiset.coe_eq_coe.mpr hperm]
    exact collectLeftCountDistribution_int64 hkey
  have hpositive : 0 < query.leftRows.card := Multiset.card_pos.mpr hleft
  have hdropped : ((rows.drop query.offset).map Prod.snd).sum = query.leftRows.card := by
    have hsum := sum_valueCounts (query.leftRows.map (rowCount counts value))
    rw [← hgroups,Multiset.map_coe,Multiset.sum_coe,Multiset.card_map] at hsum
    exact hsum
  have htotal : (rows.map Prod.snd).sum = kept.card := by
    have hsum := sum_valueCounts kept
    rw [← hrows,Multiset.map_coe,Multiset.sum_coe] at hsum
    exact hsum
  have hinner := card_innerCounts_le finder tables query
  have hdrop_le : ((rows.drop query.offset).map Prod.snd).sum ≤ (rows.map Prod.snd).sum :=
    ((List.drop_sublist _ _).map _).sum_le_sum fun _ _ => Nat.zero_le _
  have hoffset : query.offset = 0 := by
    have hrowsPos : ∀ row ∈ rows, 0 < row.2 := by
      intro row hrow
      have hmem : row ∈ valueCounts kept := by
        rw [← hrows]
        exact hrow
      exact pos_of_mem_valueCounts hmem
    apply drop_eq_zero hrowsPos
    · omega
    · omega
  have hinnerOffset : query.innerOffset = 0 := by omega
  have hkept : kept = query.innerCounts finder tables := by
    apply Multiset.eq_of_le_of_card_le hle
    omega
  have hcounts : query.innerCounts finder tables = query.leftRows.map (rowCount counts value) := by
    apply valueCounts_injective
    rw [← hkept,← hrows,← hgroups,hoffset,List.drop_zero]
  obtain ⟨hnodup,hfilter,hrow⟩ := (innerCounts_eq_iff h hkey).mp hcounts
  exact ⟨hnodup,hoffset,hinnerOffset,hfilter,hrow⟩

theorem isResult_of_keepsAll {lexSort : LexSort} {primitivePartialSort : Bool} {value : L → Option ℤ}
    (h : collectDenseRightCounts finder tables settings query.right query.rightFilter = .ok (some counts))
    (hkey : query.left.key = .int64 value) (hkeeps : query.KeepsAll finder tables) (limit : Option ℕ) :
    query.IsResult finder tables limit (applyOutputOrderLimit lexSort primitivePartialSort query.orderBy limit
      (collectLeftCountDistribution query.left counts)) := by
  obtain ⟨hnodup,hoffset,hinnerOffset,hfilter,hrow⟩ := hkeeps
  obtain ⟨rows,hperm,hsorted,hout⟩ := applyOutputOrderLimit_sorted lexSort primitivePartialSort query.orderBy limit
    (collectLeftCountDistribution query.left counts)
  refine ⟨query.innerCounts finder tables,⟨le_rfl,?_⟩,rows,?_,hsorted,?_⟩
  · rw [hinnerOffset,Nat.sub_zero]
  · rw [Multiset.coe_eq_coe.mpr hperm,(innerCounts_eq_iff h hkey).mpr ⟨hnodup,hfilter,hrow⟩]
    exact collectLeftCountDistribution_int64 hkey
  · rw [hout,hoffset,List.drop_zero]

theorem isResult_of_leftRows_eq_zero (hleft : query.leftRows = 0) (limit : Option ℕ) : query.IsResult finder tables limit [] := by
  have hinner : query.innerCounts finder tables = 0 := by
    apply Multiset.card_eq_zero.mp
    have hle := card_innerCounts_le finder tables query
    rw [hleft,Multiset.card_zero] at hle
    exact Nat.le_zero.mp hle
  refine ⟨0,⟨Multiset.zero_le _,?_⟩,[],rfl,List.Pairwise.nil,?_⟩
  · rw [hinner,Multiset.card_zero,Nat.zero_sub]
  · rw [List.drop_nil,limitRows_nil]

theorem isResult_nil_iff : (∀ limit, query.IsResult finder tables limit []) ↔ query.SkipsAll finder tables := by
  constructor
  · intro h
    obtain ⟨kept,hkept,rows,hrows,-,hout⟩ := h none
    refine ⟨kept,hkept,?_⟩
    have hlength : rows.length = kept.dedup.card := by
      rw [← card_valueCounts,← hrows,Multiset.coe_card]
    rw [← hlength]
    exact List.drop_eq_nil_iff.mp hout.symm
  · rintro ⟨kept,hkept,hskip⟩ limit
    refine ⟨kept,hkept,(valueCounts kept).toList.mergeSort fun a b => (compareGroups (query.orderBy.getD []) a b).isLE,?_,
      sortedBy_mergeSort _ _,?_⟩
    · rw [Multiset.coe_eq_coe.mpr (List.mergeSort_perm _ _),Multiset.coe_toList]
    · have hlength : ((valueCounts kept).toList.mergeSort fun a b =>
          (compareGroups (query.orderBy.getD []) a b).isLE).length ≤ query.offset := by
        rw [List.length_mergeSort,Multiset.length_toList,card_valueCounts]
        exact hskip
      rw [List.drop_eq_nil_of_le hlength,limitRows_nil]

theorem rowMatches_iff_like {like : LikeExpr} {filter : FastLikeSubstrings} (h : fastLikeSubstringsFilter (.like like) = some filter)
    (value : Option String) : fastLikeSubstringsRowMatches finder filter value = true ↔
      ∃ text, value = some text ∧ (like.negated = false ↔ like.Matches tables text) := by
  obtain ⟨hcase,hescape,-,-,-,hnegated,hverdict⟩ := fastLikeSubstringsFilter_like finder h
  cases value with
  | none => simp [fastLikeSubstringsRowMatches]
  | some text =>
    have hmatches : like.Matches tables text ↔ findParts finder false filter.parts (bytesOf text) = true := by
      unfold LikeExpr.Matches
      rw [hcase,if_neg Bool.false_ne_true,hescape]
      exact (hverdict text).symm
    change findParts finder filter.negated filter.parts (bytesOf text) = true ↔ _
    simp only [Option.some_inj,exists_eq_left',hmatches]
    rw [findParts_negated,hnegated]
    cases findParts finder false filter.parts (bytesOf text) <;> cases like.negated <;> simp

/-- What the executor gives for an accepted query is a result of the query, for every limit, exactly where the dense
counts answer it; its filter on substrings is LIKE. -/
theorem tryExecute_isResult_iff {lexSort : LexSort} {primitivePartialSort : Bool} {accepted : List (ℕ × ℕ)}
    (h : query.tryExecute finder tables settings lexSort primitivePartialSort none = .ok (some accepted)) :
    (∀ like filter, fastLikeSubstringsFilter (.like like) = some filter → ∀ value,
        (fastLikeSubstringsRowMatches finder filter value = true ↔
          ∃ text, value = some text ∧ (like.negated = false ↔ like.Matches tables text))) ∧
      ((∀ limit output, query.tryExecute finder tables settings lexSort primitivePartialSort limit = .ok (some output) →
          query.IsResult finder tables limit output) ↔ query.Answers finder tables) := by
  refine ⟨fun like filter hfilter value => rowMatches_iff_like hfilter value,?_⟩
  obtain ⟨collected,hcollect,haccepted⟩ := map_eq_ok_iff.mp h
  obtain ⟨counts,rfl,-⟩ := Option.map_eq_some_iff.mp haccepted
  have hrun : ∀ limit, query.tryExecute finder tables settings lexSort primitivePartialSort limit =
      .ok (some (applyOutputOrderLimit lexSort primitivePartialSort query.orderBy limit
        (collectLeftCountDistribution query.left counts))) := by
    intro limit
    unfold tryExecute
    rw [hcollect]
    rfl
  have hall : (∀ limit output, query.tryExecute finder tables settings lexSort primitivePartialSort limit = .ok (some output) →
        query.IsResult finder tables limit output) ↔
      ∀ limit, query.IsResult finder tables limit (applyOutputOrderLimit lexSort primitivePartialSort query.orderBy limit
        (collectLeftCountDistribution query.left counts)) := by
    constructor
    · exact fun hresult limit => hresult limit _ (hrun limit)
    · intro hresult limit output hout
      rw [hrun limit] at hout
      cases hout
      exact hresult limit
  rw [hall]
  unfold Answers
  cases hkey : query.left.key with
  | int64 value =>
    constructor
    · intro hresult
      by_cases hleft : query.leftRows = 0
      · exact Or.inl hleft
      · exact Or.inr (keepsAll_of_isResult hcollect hkey hleft (hresult none))
    · rintro (hleft | hkeeps) limit
      · have hgroups : collectLeftCountDistribution query.left counts = [] := by
          apply (Multiset.coe_eq_zero _).mp
          rw [collectLeftCountDistribution_int64 hkey]
          have hrows : (query.left.batches.flatten : Multiset L) = 0 := hleft
          rw [hrows]
          rfl
        rw [hgroups,output_nil]
        exact isResult_of_leftRows_eq_zero hleft limit
      · exact isResult_of_keepsAll hcollect hkey hkeeps limit
  | other value =>
    dsimp only
    rw [← isResult_nil_iff,collectLeftCountDistribution_other hkey]
    simp only [output_nil]

end Results

section Samples

/-- Keys in batches, where the counted column of the right table is its key. -/
def keysQuery (left right : List (List (Option ℤ))) : CountDistributionQuery (Option ℤ) (Option ℤ) Empty where
  left := ⟨left,.int64 id⟩
  right :=
    { batches := right
      rowGroupViews := none
      schedule := id
      key := .int64 id
      counted := Option.isSome
      countColumnIsKey := true
      countColumnNonNullable := false
      text := fun _ _ => none
      condition := fun _ _ => .ok none
      views_perm := nofun
      schedule_perm := fun _ => .rfl
      counted_key := by
        rintro - value hvalue row
        cases hvalue
        rfl
      counted_nonNullable := nofun }
  equality := ⟨fun a b => decide (a = b),fun a b => by simp⟩
  rightFilter := none
  expressionFilter := fun _ => true
  innerOffset := 0
  orderBy := none
  offset := 0

def threeKeys : DenseCountSettings where
  ranges := some [⟨0,4,none,1,3,.int64⟩]
  maxBytes := 1024
  withinAmplification := fun _ _ => true
  fastLikeDistribution := true
  rowGroupMap := true

def mergeLexSort : LexSort where
  sort order groups := groups.mergeSort fun a b => (compareGroups order a b).isLE
  perm _ _ := List.mergeSort_perm _ _
  sorted := sortedBy_mergeSort

/-- Three different left keys, one of them NULL. -/
theorem tryExecute_isResult_small :
    (keysQuery [[some 1,none],[some 2]] [[some 1,some 3],[none,some 1]]).tryExecute (scanSearcher UInt8) asciiTables threeKeys
        mergeLexSort true none = .ok (some [(0,2),(2,1)]) ∧
      (keysQuery [[some 1,none],[some 2]] [[some 1,some 3],[none,some 1]]).IsResult (scanSearcher UInt8) asciiTables none
        [(0,2),(2,1)] := by
  have hrun : (keysQuery [[some 1,none],[some 2]] [[some 1,some 3],[none,some 1]]).tryExecute (scanSearcher UInt8) asciiTables
      threeKeys mergeLexSort true none = .ok (some [(0,2),(2,1)]) := by decide +kernel
  refine ⟨hrun,(tryExecute_isResult_iff hrun).2.mpr (.inr ?_) none _ hrun⟩
  refine ⟨by decide +kernel,rfl,rfl,fun _ _ _ => rfl,fun a ha => ?_⟩
  obtain ⟨pair,hpair,hfst⟩ := exists_joined ha
  exact ⟨pair,hpair,hfst,rfl⟩

/-- A left key that occurs twice is two rows with one match each, and not one group with two. -/
theorem tryExecute_repeated_key :
    (keysQuery [[some 1,some 1]] [[some 1]]).tryExecute (scanSearcher UInt8) asciiTables threeKeys mergeLexSort true none =
        .ok (some [(1,2)]) ∧
      ¬ (keysQuery [[some 1,some 1]] [[some 1]]).IsResult (scanSearcher UInt8) asciiTables none [(1,2)] := by
  have hrun : (keysQuery [[some 1,some 1]] [[some 1]]).tryExecute (scanSearcher UInt8) asciiTables threeKeys mergeLexSort true none =
      .ok (some [(1,2)]) := by decide +kernel
  refine ⟨hrun,fun hresult => ?_⟩
  obtain ⟨collected,hcollect,haccepted⟩ := map_eq_ok_iff.mp hrun
  obtain ⟨counts,rfl,hout⟩ := Option.map_eq_some_iff.mp haccepted
  rw [← hout] at hresult
  obtain ⟨hnodup,-⟩ := keepsAll_of_isResult hcollect rfl (by decide) hresult
  revert hnodup
  decide +kernel

end Samples
end CountDistributionQuery
end Dodam.Sql
