import Dodam.Sql.SupplierWaitOrdered

/-! # Counts of waiting suppliers and the order of rows

What a supplier is owed is told by the rows of each order.
-/
namespace Dodam.Sql
open Foundation Engine

/-- The late rows of the supplier in the final orders where only it was late and others took part. -/
def owedTotal (finalOrders : ℤ → Bool) (suppkey : ℤ) (chunks : List (List LineitemBatch)) : ℕ :=
  ((((chunkEntries chunks).map Prod.fst).dedup.filter fun order => finalOrders order).map fun order =>
    owed suppkey (keyTotal order (chunkEntries chunks))).sum

def FewLate (chunks : List (List LineitemBatch)) : Prop :=
  ∀ order suppkey, Qualifies suppkey (keyTotal order (chunkEntries chunks)) →
    lateRows suppkey (keyTotal order (chunkEntries chunks)) < 2 ^ 32

/-- Each run of an order counts, in 32 bits, the late rows of a supplier just where the whole order does. -/
def JudgedAlike (chunks : List (List LineitemBatch)) : Prop :=
  ∀ run ∈ keyRuns (chunkEntries chunks), ∀ suppkey,
    counted suppkey run.2 = if Qualifies suppkey (keyTotal run.1 (chunkEntries chunks)) then lateRows suppkey run.2 else 0

section Counts
variable {finalOrders suppliers : ℤ → Bool} {suppkey : ℤ}

theorem counted_le_lateRows (suppkey : ℤ) (rows : Multiset SupplierRow) : counted suppkey rows ≤ lateRows suppkey rows := by
  unfold counted
  split_ifs
  · exact Nat.mod_le _ _
  · exact Nat.zero_le _

theorem counted_le_owed (suppkey : ℤ) (rows : Multiset SupplierRow) : counted suppkey rows ≤ owed suppkey rows := by
  unfold counted owed
  split_ifs
  · exact Nat.mod_le _ _
  · exact le_rfl

theorem counted_eq_owed_iff (suppkey : ℤ) (rows : Multiset SupplierRow) :
    counted suppkey rows = owed suppkey rows ↔ (Qualifies suppkey rows → lateRows suppkey rows < 2 ^ 32) := by
  unfold counted owed
  split_ifs with h
  · rw [Nat.mod_eq_iff_lt (by decide)]
    exact ⟨fun hlt _ => hlt,fun himp => himp h⟩
  · exact iff_of_true rfl fun hq => absurd hq h

theorem keyTotal_hash (chunks : List (List LineitemBatch)) (hlisted : suppliers suppkey = true) :
    keyTotal suppkey (supplierWaitCountsHash finalOrders suppliers chunks) =
      ((((chunkEntries chunks).map Prod.fst).dedup.filter fun order => finalOrders order).map fun order =>
        counted suppkey (keyTotal order (chunkEntries chunks))).sum := by
  have hholds := holds_lineitemOrderStates finalOrders chunks
  unfold supplierWaitCountsHash
  generalize lineitemOrderStates finalOrders chunks = states at hholds
  have hfold : ∀ (l : List (ℤ × SupplierWaitOrderState)) counts,
      (∀ entry ∈ l, Describes (keyTotal entry.1 (chunkEntries chunks)) entry.2) →
      keyTotal suppkey ((l.map Prod.snd).foldl (countQualifyingSupplierWaitOrder suppliers) counts) =
        keyTotal suppkey counts + ((l.map Prod.fst).map fun order => counted suppkey (keyTotal order (chunkEntries chunks))).sum := by
    intro l
    induction l with
    | nil =>
      intro counts _
      rfl
    | cons entry l ih =>
      intro counts h
      obtain ⟨hentry,hrest⟩ := List.forall_mem_cons.mp h
      rw [List.map_cons,List.foldl_cons,ih _ hrest,keyTotal_countQualifying hentry counts hlisted,List.map_cons,List.map_cons,
        List.sum_cons,Nat.add_assoc]
  have hperm : (states.map Prod.fst).Perm (((chunkEntries chunks).map Prod.fst).dedup.filter fun order => finalOrders order) := by
    apply (List.perm_ext_iff_of_nodup hholds.nodup ((List.nodup_dedup _).filter _)).mpr
    intro order
    rw [hholds.keys,List.mem_filter,List.mem_dedup]
    exact and_comm
  rw [hfold states [] hholds.describes]
  exact (Nat.zero_add _).trans (hperm.map _).sum_eq

theorem runCount_single (order suppkey : ℤ) (runs : List (ℤ × Multiset SupplierRow)) :
    runCount (fun key => decide (key = order)) suppkey runs =
      ((runs.filter fun run => run.1 = order).map fun run => counted suppkey run.2).sum :=
  sum_map_ite (fun run : ℤ × Multiset SupplierRow => decide (run.1 = order)) (fun run => counted suppkey run.2) runs

theorem owed_zero (suppkey : ℤ) : owed suppkey 0 = 0 := by
  unfold owed
  split_ifs
  · rfl
  · rfl

theorem lateRows_keyTotal (suppkey order : ℤ) (runs : List (ℤ × Multiset SupplierRow)) :
    lateRows suppkey (keyTotal order runs) = ((runs.filter fun run => run.1 = order).map fun run => lateRows suppkey run.2).sum := by
  induction runs with
  | nil => rfl
  | cons run runs ih =>
    rw [keyTotal_cons,lateRows_add,ih]
    by_cases h : run.1 = order
    · simp [h]
    · simp [h,lateRows,lateSuppliers]

theorem sum_counted_eq_owed_iff (suppkey order : ℤ) (runs : List (ℤ × Multiset SupplierRow)) :
    ((runs.filter fun run => run.1 = order).map fun run => counted suppkey run.2).sum = owed suppkey (keyTotal order runs) ↔
      ∀ run ∈ runs, run.1 = order →
        counted suppkey run.2 = if Qualifies suppkey (keyTotal order runs) then lateRows suppkey run.2 else 0 := by
  have hmem : ∀ P : ℤ × Multiset SupplierRow → Prop, (∀ run ∈ runs, run.1 = order → P run) ↔
      ∀ run ∈ runs.filter fun run => run.1 = order, P run := by
    intro P
    simp only [List.mem_filter,decide_eq_true_eq,and_imp]
  rw [hmem]
  unfold owed
  split_ifs with hqualifies
  · rw [lateRows_keyTotal]
    exact (sum_le_and_eq_iff fun run _ => counted_le_lateRows suppkey run.2).2
  · have hnone : ((runs.filter fun run => run.1 = order).map fun _ => 0).sum = 0 := by simp
    have hzero := (sum_le_and_eq_iff fun run (_ : run ∈ runs.filter fun run => run.1 = order) =>
      Nat.zero_le (counted suppkey run.2)).2
    rw [hnone] at hzero
    exact eq_comm.trans (hzero.trans (forall₂_congr fun _ _ => eq_comm))

theorem mem_keys_keyRuns (order : ℤ) (entries : List (ℤ × Multiset SupplierRow)) :
    order ∈ (keyRuns entries).map Prod.fst ↔ order ∈ entries.map Prod.fst := by
  constructor
  · intro h
    obtain ⟨run,hrun,rfl⟩ := List.mem_map.mp h
    obtain ⟨row,hrow,hkey⟩ := exists_row_of_mem_keyRuns run hrun
    exact hkey ▸ List.mem_map_of_mem hrow
  · intro h
    obtain ⟨row,hrow,rfl⟩ := List.mem_map.mp h
    obtain ⟨run,hrun,hkey⟩ := exists_run_of_mem row hrow
    exact hkey ▸ List.mem_map_of_mem hrun

/-- The runs of all rows count what is owed, whatever the final orders, just where each is judged like its order. -/
theorem runCount_eq_owedTotal_iff (chunks : List (List LineitemBatch)) :
    (∀ finalOrders suppkey, runCount finalOrders suppkey (keyRuns (chunkEntries chunks)) = owedTotal finalOrders suppkey chunks) ↔
      JudgedAlike chunks := by
  have hjudged : JudgedAlike chunks ↔ ∀ order suppkey, ((((keyRuns (chunkEntries chunks)).filter fun run => run.1 = order).map
      fun run => counted suppkey run.2).sum = owed suppkey (keyTotal order (chunkEntries chunks))) := by
    have horder : ∀ order suppkey, (((keyRuns (chunkEntries chunks)).filter fun run => run.1 = order).map
        fun run => counted suppkey run.2).sum = owed suppkey (keyTotal order (chunkEntries chunks)) ↔
        ∀ run ∈ keyRuns (chunkEntries chunks), run.1 = order → counted suppkey run.2 =
          if Qualifies suppkey (keyTotal order (chunkEntries chunks)) then lateRows suppkey run.2 else 0 := by
      intro order suppkey
      rw [← keyTotal_keyRuns order (chunkEntries chunks)]
      exact sum_counted_eq_owed_iff suppkey order _
    constructor
    · intro h order suppkey
      apply (horder order suppkey).mpr
      rintro run hrun rfl
      exact h run hrun suppkey
    · intro h run hrun suppkey
      exact (horder run.1 suppkey).mp (h run.1 suppkey) run hrun rfl
  rw [hjudged]
  constructor
  · -- an order is judged by itself when it is the only final one
    intro h order suppkey
    have hsingle := h (fun key => decide (key = order)) suppkey
    rw [runCount_single] at hsingle
    rw [hsingle]
    unfold owedTotal
    by_cases horder : order ∈ (chunkEntries chunks).map Prod.fst
    · have hfilter : ((chunkEntries chunks).map Prod.fst).dedup.filter (fun key => decide (key = order)) = [order] := by
        have hcount : ((chunkEntries chunks).map Prod.fst).dedup.count order = 1 :=
          List.count_eq_one_of_mem (List.nodup_dedup _) (List.mem_dedup.mpr horder)
        have hreplicate := List.filter_eq order (l := ((chunkEntries chunks).map Prod.fst).dedup)
        rw [hcount] at hreplicate
        exact hreplicate
      rw [hfilter]
      exact Nat.add_zero _
    · have hfilter : ((chunkEntries chunks).map Prod.fst).dedup.filter (fun key => decide (key = order)) = [] := by
        apply List.filter_eq_nil_iff.mpr
        intro key hkey heq
        exact horder (of_decide_eq_true heq ▸ List.mem_dedup.mp hkey)
      rw [hfilter,keyTotal_of_notMem horder,owed_zero]
      rfl
  · intro h finalOrders suppkey
    have hkeys : ∀ run ∈ keyRuns (chunkEntries chunks), run.1 ∈ ((chunkEntries chunks).map Prod.fst).dedup := by
      intro run hrun
      exact List.mem_dedup.mpr ((mem_keys_keyRuns _ _).mp (List.mem_map_of_mem hrun))
    have hgroups : ∀ order, (((keyRuns (chunkEntries chunks)).filter fun run => run.1 = order).map fun run =>
        if finalOrders run.1 = true then counted suppkey run.2 else 0).sum =
        if finalOrders order = true then owed suppkey (keyTotal order (chunkEntries chunks)) else 0 := by
      intro order
      rw [← h order suppkey]
      have hsame : ∀ run ∈ (keyRuns (chunkEntries chunks)).filter fun run => run.1 = order,
          (if finalOrders run.1 = true then counted suppkey run.2 else 0) =
            if finalOrders order = true then counted suppkey run.2 else 0 := by
        intro run hrun
        rw [of_decide_eq_true (List.mem_filter.mp hrun).2]
      rw [List.map_congr_left hsame]
      split_ifs
      · rfl
      · simp
    unfold runCount owedTotal
    rw [sum_map_eq_sum_groups Prod.fst _ (List.nodup_dedup _) hkeys,← sum_map_ite,funext hgroups]

theorem hash_eq_owedTotal_iff (chunks : List (List LineitemBatch)) :
    (∀ finalOrders suppliers suppkey, suppliers suppkey = true →
      keyTotal suppkey (supplierWaitCountsHash finalOrders suppliers chunks) = owedTotal finalOrders suppkey chunks) ↔ FewLate chunks := by
  constructor
  · intro h order suppkey hqualifies
    have hall := h (fun _ => true) (fun _ => true) suppkey rfl
    have hlisted : (fun _ : ℤ => true) suppkey = true := rfl
    rw [keyTotal_hash chunks hlisted] at hall
    have heach := (sum_le_and_eq_iff fun order _ => counted_le_owed suppkey (keyTotal order (chunkEntries chunks))).2.mp hall
    by_cases horder : order ∈ (chunkEntries chunks).map Prod.fst
    · have hmem : order ∈ ((chunkEntries chunks).map Prod.fst).dedup.filter fun _ => true :=
        List.mem_filter.mpr ⟨List.mem_dedup.mpr horder,rfl⟩
      exact (counted_eq_owed_iff _ _).mp (heach order hmem) hqualifies
    · obtain ⟨⟨row,hrow,-⟩,-⟩ := hqualifies
      rw [keyTotal_of_notMem horder] at hrow
      exact absurd hrow (Multiset.notMem_zero row)
  · intro h finalOrders suppliers suppkey hlisted
    rw [keyTotal_hash chunks hlisted]
    unfold owedTotal
    have heach : ∀ order, counted suppkey (keyTotal order (chunkEntries chunks)) = owed suppkey (keyTotal order (chunkEntries chunks)) :=
      fun order => (counted_eq_owed_iff _ _).mpr (h order suppkey)
    rw [funext heach]

end Counts

/-- Both paths count what is owed, for any final orders and suppliers, just where no order owes too many rows and, if
the ordered path answers, each run of an order is judged like the order; merging is that of the rows. -/
theorem supplierWaitCounts_iff (chunks : List (List LineitemBatch)) :
    ((∀ (finalOrders suppliers : ℤ → Bool) (suppkey : ℤ), suppliers suppkey = true →
        (∀ counts, lineitemSupplierWaitCountsOrdered finalOrders suppliers chunks = some counts →
          keyTotal suppkey counts = owedTotal finalOrders suppkey chunks) ∧
        keyTotal suppkey (supplierWaitCountsHash finalOrders suppliers chunks) = owedTotal finalOrders suppkey chunks) ↔
      (Answers chunks → JudgedAlike chunks) ∧ FewLate chunks) ∧
    ∀ rows rows' : List SupplierRow,
      SameState ((SupplierWaitOrderState.ofRows rows).merge (.ofRows rows')) (.ofRows (rows ++ rows')) := by
  refine ⟨?_,merge_ofRows⟩
  constructor
  · intro h
    constructor
    · intro hanswers
      apply (runCount_eq_owedTotal_iff chunks).mp
      intro finalOrders suppkey
      obtain ⟨counts,hcounts⟩ := Option.isSome_iff_exists.mp
        ((isSome_ordered_iff chunks).mpr hanswers :
          (lineitemSupplierWaitCountsOrdered finalOrders (fun _ => true) chunks).isSome = true)
      have hpath := (h finalOrders (fun _ => true) suppkey rfl).1 counts hcounts
      rw [← hpath]
      exact (countsRuns_ordered hcounts suppkey rfl).symm
    · apply (hash_eq_owedTotal_iff chunks).mp
      exact fun finalOrders suppliers suppkey hlisted => (h finalOrders suppliers suppkey hlisted).2
  · rintro ⟨hjudged,hfew⟩ finalOrders suppliers suppkey hlisted
    refine ⟨?_,(hash_eq_owedTotal_iff chunks).mpr hfew finalOrders suppliers suppkey hlisted⟩
    intro counts hcounts
    have hanswers : Answers chunks :=
      (isSome_ordered_iff chunks).mp (Option.isSome_iff_exists.mpr ⟨counts,hcounts⟩)
    rw [countsRuns_ordered hcounts suppkey hlisted]
    exact (runCount_eq_owedTotal_iff chunks).mpr (hjudged hanswers) finalOrders suppkey

/-- Order 1 comes back in the third chunk, with its second supplier. -/
def splitOrder : List (List LineitemBatch) :=
  [[⟨true,[⟨some 1,some 7,some 10,some 5⟩]⟩],[⟨true,[⟨some 2,some 7,some 1,some 5⟩]⟩],[⟨true,[⟨some 1,some 8,some 1,some 5⟩]⟩]]

/-- Neither of its two runs counts the late row. -/
theorem supplierWaitCounts_split :
    lineitemSupplierWaitCountsOrdered (fun order => decide (order = 1)) (fun suppkey => decide (suppkey = 7)) splitOrder = some [] ∧
      keyTotal 7 ([] : List (ℤ × ℕ)) = 0 ∧ owedTotal (fun order => decide (order = 1)) 7 splitOrder = 1 :=
  ⟨rfl,rfl,by decide⟩

end Dodam.Sql
