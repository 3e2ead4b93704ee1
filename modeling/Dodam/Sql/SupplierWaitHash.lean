import Dodam.Sql.SupplierWaitStates

/-! # The hash path of the waiting suppliers

The map of states has the final orders of the rows that were read, and the state of each tells
of all its rows, however they were split.
-/
namespace Dodam.Sql
open Foundation

section Counts
variable {suppliers : ℤ → Bool} {rows : Multiset SupplierRow} {state : SupplierWaitOrderState} {suppkey : ℤ}

theorem mem_lateSuppliers : suppkey ∈ lateSuppliers rows ↔ ∃ row ∈ rows, row.late = true ∧ row.suppkey = suppkey := by
  unfold lateSuppliers
  rw [Multiset.mem_map]
  constructor
  · rintro ⟨row,hrow,hkey⟩
    obtain ⟨hrow,hlate⟩ := Multiset.mem_filter.mp hrow
    exact ⟨row,hrow,hlate,hkey⟩
  · rintro ⟨row,hrow,hlate,hkey⟩
    exact ⟨row,Multiset.mem_filter.mpr ⟨hrow,hlate⟩,hkey⟩

/-- A supplier that is owed something is the one the state remembers as late. -/
theorem Describes.qualifies_iff (h : Describes rows state) :
    Qualifies suppkey rows ∧ 0 < lateRows suppkey rows ↔
      (state.hasMultipleSuppliers = true ∧ state.hasSingleLateSupplier = true) ∧ state.lateSupplier = suppkey := by
  have hsuppliers := h.suppliers
  have hlate := h.late
  unfold SupplierWaitOrderState.hasSingleLateSupplier
  rw [Bool.and_eq_true,Bool.not_eq_true']
  constructor
  · rintro ⟨⟨⟨other,hother,hne⟩,hall⟩,hpos⟩
    have hmem : suppkey ∈ lateSuppliers rows := Multiset.count_pos.mp hpos
    have hhas : state.hasLateSupplier = true := hlate.has_iff.mpr ⟨suppkey,hmem⟩
    have honly : ∀ key ∈ lateSuppliers rows, key = suppkey := by
      intro key hkey
      obtain ⟨row,hrow,hrowLate,rfl⟩ := mem_lateSuppliers.mp hkey
      exact hall row hrow hrowLate
    have hremembered : state.lateSupplier = suppkey := honly _ (hlate.mem hhas)
    refine ⟨⟨?_,hhas,?_⟩,hremembered⟩
    · apply hsuppliers.multiple_iff.mpr
      by_cases hfirst : suppkey = state.firstSupplier
      · exact ⟨other.suppkey,Multiset.mem_map_of_mem _ hother,hfirst ▸ hne⟩
      · obtain ⟨row,hrow,-,hkey⟩ := mem_lateSuppliers.mp hmem
        exact ⟨suppkey,hkey ▸ Multiset.mem_map_of_mem _ hrow,hfirst⟩
    · apply Bool.eq_false_iff.mpr
      intro hmultiple
      obtain ⟨key,hkey,hne⟩ := hlate.multiple_iff.mp hmultiple
      exact hne ((honly key hkey).trans hremembered.symm)
  · rintro ⟨⟨hmultiple,hhas,hsingle⟩,rfl⟩
    rw [hhas,hsingle] at hlate
    refine ⟨⟨?_,?_⟩,Multiset.count_pos.mpr (hlate.mem rfl)⟩
    · obtain ⟨key,hkey,hne⟩ := hsuppliers.multiple_iff.mp hmultiple
      obtain ⟨row,hrow,rfl⟩ := Multiset.mem_map.mp hkey
      by_cases heq : row.suppkey = state.lateSupplier
      · have hhasSupplier : state.hasSupplier = true := hsuppliers.has_iff.mpr ⟨_,hkey⟩
        obtain ⟨first,hfirst,hfirstKey⟩ := Multiset.mem_map.mp (hsuppliers.mem hhasSupplier)
        exact ⟨first,hfirst,fun h => hne (heq.trans (h.symm.trans hfirstKey))⟩
      · exact ⟨row,hrow,heq⟩
    · intro row hrow hrowLate
      exact hlate.eq_first (mem_lateSuppliers.mpr ⟨row,hrow,hrowLate,rfl⟩)

theorem keyTotal_countQualifying (h : Describes rows state) (counts : List (ℤ × ℕ)) (hlisted : suppliers suppkey = true) :
    keyTotal suppkey (countQualifyingSupplierWaitOrder suppliers counts state) = keyTotal suppkey counts + counted suppkey rows := by
  have hiff : Qualifies suppkey rows ∧ 0 < lateRows suppkey rows ↔
      (state.hasMultipleSuppliers = true ∧ state.hasSingleLateSupplier = true) ∧ state.lateSupplier = suppkey := h.qualifies_iff
  have hcounted : counted suppkey rows =
      if (state.hasMultipleSuppliers = true ∧ state.hasSingleLateSupplier = true) ∧ state.lateSupplier = suppkey then
        state.lateRowCount.toNat else 0 := by
    unfold counted
    by_cases hstate : (state.hasMultipleSuppliers = true ∧ state.hasSingleLateSupplier = true) ∧ state.lateSupplier = suppkey
    · have hsingle := hstate.1.2
      unfold SupplierWaitOrderState.hasSingleLateSupplier at hsingle
      rw [Bool.and_eq_true,Bool.not_eq_true'] at hsingle
      rw [if_pos (hiff.mpr hstate).1,if_pos hstate,h.count hsingle.2 hsingle.1,hstate.2]
      exact UInt32.toNat_ofNat'.symm
    · rw [if_neg hstate]
      split_ifs with hqualifies
      · have hnone : lateRows suppkey rows = 0 := by
          by_contra hpos
          exact hstate (hiff.mp ⟨hqualifies,Nat.pos_of_ne_zero hpos⟩)
        rw [hnone]
        rfl
      · rfl
  rw [hcounted]
  unfold countQualifyingSupplierWaitOrder
  by_cases hstate : state.hasMultipleSuppliers = true ∧ state.hasSingleLateSupplier = true
  · have hskip : ¬(!state.hasMultipleSuppliers || !state.hasSingleLateSupplier) = true := by simp [hstate]
    rw [if_neg hskip]
    by_cases hkey : state.lateSupplier = suppkey
    · rw [hkey,hlisted,if_neg (by simp),keyTotal_modifyAt fun _ => rfl,if_pos rfl,if_pos ⟨hstate,rfl⟩]
    · have hnot : ¬((state.hasMultipleSuppliers = true ∧ state.hasSingleLateSupplier = true) ∧ state.lateSupplier = suppkey) :=
        fun h => hkey h.2
      rw [if_neg hnot]
      split_ifs
      · rfl
      · rw [keyTotal_modifyAt fun _ => rfl,if_neg hkey]
  · have hskip : (!state.hasMultipleSuppliers || !state.hasSingleLateSupplier) = true := by
      rw [not_and_or,Bool.not_eq_true,Bool.not_eq_true] at hstate
      rw [Bool.or_eq_true,Bool.not_eq_true',Bool.not_eq_true']
      exact hstate
    rw [if_pos hskip,if_neg fun h => hstate h.1]
    rfl

end Counts

def orderEntries (rows : List LineitemRow) : List (ℤ × Multiset SupplierRow) :=
  (presentLineitems rows).map fun row => (row.1,{row.2})

structure HoldsOrders (finalOrders : ℤ → Bool) (states : List (ℤ × SupplierWaitOrderState))
    (entries : List (ℤ × Multiset SupplierRow)) : Prop where
  nodup : (states.map Prod.fst).Nodup
  keys : ∀ order, order ∈ states.map Prod.fst ↔ finalOrders order = true ∧ order ∈ entries.map Prod.fst
  describes : ∀ entry ∈ states, Describes (keyTotal entry.1 entries) entry.2

namespace HoldsOrders
variable {finalOrders : ℤ → Bool} {states : List (ℤ × SupplierWaitOrderState)} {entries entries' : List (ℤ × Multiset SupplierRow)}

theorem empty (finalOrders : ℤ → Bool) : HoldsOrders finalOrders [] [] where
  nodup := List.nodup_nil
  keys order := by simp
  describes entry h := by cases h

theorem congr (h : HoldsOrders finalOrders states entries)
    (hsame : ∀ order, finalOrders order = true →
      (order ∈ entries.map Prod.fst ↔ order ∈ entries'.map Prod.fst) ∧ keyTotal order entries = keyTotal order entries') :
    HoldsOrders finalOrders states entries' where
  nodup := h.nodup
  keys order := (h.keys order).trans (and_congr_right fun hfinal => (hsame order hfinal).1)
  describes entry hentry := by
    have hfinal := ((h.keys entry.1).mp (List.mem_map_of_mem hentry)).1
    rw [← (hsame entry.1 hfinal).2]
    exact h.describes entry hentry

theorem merge (h : HoldsOrders finalOrders states entries) {order : ℤ} (hfinal : finalOrders order = true) {rows : Multiset SupplierRow}
    {state : SupplierWaitOrderState} (hstate : Describes rows state) :
    HoldsOrders finalOrders (modifyAt (fun own => own.merge state) {} states order) (entries ++ [(order,rows)]) where
  nodup := nodup_modifyAt h.nodup
  keys key := by
    rw [mem_keys_modifyAt,h.keys,List.map_append,List.mem_append,List.map_singleton,List.mem_singleton]
    constructor
    · rintro (rfl | ⟨hkey,hmem⟩)
      · exact ⟨hfinal,Or.inr rfl⟩
      · exact ⟨hkey,Or.inl hmem⟩
    · rintro ⟨hkey,hmem | rfl⟩
      · exact Or.inr ⟨hkey,hmem⟩
      · exact Or.inl rfl
  describes entry hentry := by
    rw [keyTotal_concat]
    rcases mem_modifyAt h.nodup hentry with ⟨hne,hold⟩ | ⟨rfl,old,hold,hnew⟩ | ⟨rfl,hnone,hnew⟩
    · rw [if_neg (Ne.symm hne),add_zero]
      exact h.describes entry hold
    · rw [if_pos rfl,hnew]
      exact (h.describes _ hold).merge hstate
    · have hzero : keyTotal entry.1 entries = 0 := by
        apply keyTotal_of_notMem
        intro hmem
        exact hnone ((h.keys entry.1).mpr ⟨hfinal,hmem⟩)
      rw [if_pos rfl,hnew,hzero]
      exact describes_empty.merge hstate

theorem skip (h : HoldsOrders finalOrders states entries) {order : ℤ} (hother : finalOrders order = false) (rows : Multiset SupplierRow) :
    HoldsOrders finalOrders states (entries ++ [(order,rows)]) := by
  apply h.congr
  intro key hfinal
  have hne : order ≠ key := by
    rintro rfl
    rw [hother] at hfinal
    cases hfinal
  constructor
  · rw [List.map_append,List.mem_append,List.map_singleton,List.mem_singleton]
    exact (or_iff_left (Ne.symm hne)).symm
  · rw [keyTotal_concat,if_neg hne,add_zero]

theorem sumsTo (h : HoldsOrders finalOrders states entries) (hsums : SumsTo entries entries') : HoldsOrders finalOrders states entries' :=
  h.congr fun order _ => ⟨hsums.keys order,hsums.totals order⟩

end HoldsOrders

section Loops
variable {finalOrders : ℤ → Bool}

/-- The states hold the orders before the one in progress, whose rows are in its state. -/
inductive RunHolds (finalOrders : ℤ → Bool) : LineitemRunLoop → List (ℤ × Multiset SupplierRow) → Prop
  | start {states : List (ℤ × SupplierWaitOrderState)} {entries : List (ℤ × Multiset SupplierRow)}
    (h : HoldsOrders finalOrders states entries) : RunHolds finalOrders ⟨states,none,false,{}⟩ entries
  | selected {states : List (ℤ × SupplierWaitOrderState)} {entries done : List (ℤ × Multiset SupplierRow)} {order : ℤ}
    {rows : Multiset SupplierRow} {state : SupplierWaitOrderState} (h : HoldsOrders finalOrders states done)
    (hfinal : finalOrders order = true) (hstate : Describes rows state) (hsums : SumsTo (done ++ [(order,rows)]) entries) :
    RunHolds finalOrders ⟨states,some order,true,state⟩ entries
  | other {states : List (ℤ × SupplierWaitOrderState)} {entries : List (ℤ × Multiset SupplierRow)} {order : ℤ}
    (h : HoldsOrders finalOrders states entries) (hother : finalOrders order = false) :
    RunHolds finalOrders ⟨states,some order,false,{}⟩ entries

theorem RunHolds.begin {states : List (ℤ × SupplierWaitOrderState)} {entries : List (ℤ × Multiset SupplierRow)}
    (h : HoldsOrders finalOrders states entries) (row : ℤ × SupplierRow) :
    RunHolds finalOrders
      (if !finalOrders row.1 then ⟨states,some row.1,finalOrders row.1,{}⟩
        else ⟨states,some row.1,finalOrders row.1,({} : SupplierWaitOrderState).addRow row.2⟩)
      (entries ++ [(row.1,{row.2})]) := by
  cases hfinal : finalOrders row.1 with
  | false => exact .other (h.skip hfinal _) hfinal
  | true => exact .selected h hfinal (describes_row row.2) (SumsTo.refl _)

theorem RunHolds.step {loop : LineitemRunLoop} {entries : List (ℤ × Multiset SupplierRow)} (h : RunHolds finalOrders loop entries)
    (row : ℤ × SupplierRow) : RunHolds finalOrders (loop.step finalOrders row) (entries ++ [(row.1,{row.2})]) := by
  cases h with
  | start h => exact RunHolds.begin h row
  | @selected states entries done order rows state h hfinal hstate hsums =>
    unfold LineitemRunLoop.step LineitemRunLoop.switch
    dsimp only
    by_cases hkey : order = row.1
    · rw [if_neg (not_not.mpr hkey)]
      have hadd : AddsEntry row.1 {row.2} (done ++ [(order,rows)]) (done ++ [(order,rows + {row.2})]) := by
        have hone := addsEntry_modifyAt (fun _ => rfl : ∀ a : Multiset SupplierRow, a + {row.2} = a + {row.2}) [(order,rows)] row.1
        unfold modifyAt at hone
        rw [if_pos hkey] at hone
        exact hone.append_left done
      have hrow : Describes (rows + {row.2}) (state.addRow row.2) := by
        rw [addRow_eq_merge]
        exact hstate.merge (describes_row row.2)
      exact .selected h hfinal hrow (hsums.add hadd)
    · rw [if_pos hkey]
      have hdone := (h.merge hfinal hstate).sumsTo hsums
      exact RunHolds.begin hdone row
  | @other states entries order h hother =>
    unfold LineitemRunLoop.step LineitemRunLoop.switch
    dsimp only
    by_cases hkey : order = row.1
    · rw [if_neg (not_not.mpr hkey)]
      subst hkey
      exact .other (h.skip hother _) hother
    · rw [if_pos hkey]
      exact RunHolds.begin h row

theorem holds_typedInto {states : List (ℤ × SupplierWaitOrderState)} {entries : List (ℤ × Multiset SupplierRow)}
    (h : HoldsOrders finalOrders states entries) (rows : List LineitemRow) :
    HoldsOrders finalOrders (lineitemOrderStatesTypedInto finalOrders states rows) (entries ++ orderEntries rows) := by
  have hloop : ∀ (present : List (ℤ × SupplierRow)) loop entries, RunHolds finalOrders loop entries →
      RunHolds finalOrders (present.foldl (LineitemRunLoop.step finalOrders) loop)
        (entries ++ present.map fun row => (row.1,{row.2})) := by
    intro present
    induction present with
    | nil =>
      intro loop entries h
      rw [List.map_nil,List.append_nil]
      exact h
    | cons row present ih =>
      intro loop entries h
      have hrest := ih _ _ (h.step row)
      rw [List.append_assoc] at hrest
      exact hrest
  have hend := hloop (presentLineitems rows) _ _ (.start h)
  unfold lineitemOrderStatesTypedInto orderEntries
  generalize (presentLineitems rows).foldl (LineitemRunLoop.step finalOrders) _ = loop at hend ⊢
  cases hend with
  | start h => exact h
  | selected h hfinal hstate hsums => exact (h.merge hfinal hstate).sumsTo hsums
  | other h hother => exact h

theorem holds_batchInto {states : List (ℤ × SupplierWaitOrderState)} {entries : List (ℤ × Multiset SupplierRow)}
    (h : HoldsOrders finalOrders states entries) (rows : List LineitemRow) :
    HoldsOrders finalOrders (lineitemOrderStatesBatchInto finalOrders states rows) (entries ++ orderEntries rows) := by
  unfold lineitemOrderStatesBatchInto orderEntries
  generalize presentLineitems rows = present
  induction present generalizing states entries with
  | nil =>
    rw [List.map_nil,List.append_nil]
    exact h
  | cons row present ih =>
    rw [List.foldl_cons,List.map_cons,List.append_cons]
    apply ih
    split_ifs with hfinal
    · have hadd : (fun state : SupplierWaitOrderState => state.addRow row.2) =
          fun state => state.merge (({} : SupplierWaitOrderState).addRow row.2) :=
        funext fun state => addRow_eq_merge state row.2
      rw [hadd]
      exact h.merge hfinal (describes_row row.2)
    · exact h.skip (Bool.eq_false_iff.mpr hfinal) _

theorem holds_mergeOrderStates {states partialStates : List (ℤ × SupplierWaitOrderState)} {entries more : List (ℤ × Multiset SupplierRow)}
    (h : HoldsOrders finalOrders states entries) (hmore : HoldsOrders finalOrders partialStates more) :
    HoldsOrders finalOrders (mergeOrderStates states partialStates) (entries ++ more) := by
  -- each entry of the partial map is merged with the rows it tells of
  have hfold : ∀ (l : List (ℤ × SupplierWaitOrderState)) states entries, (∀ entry ∈ l, entry ∈ partialStates) →
      HoldsOrders finalOrders states entries →
      HoldsOrders finalOrders (mergeOrderStates states l) (entries ++ l.map fun entry => (entry.1,keyTotal entry.1 more)) := by
    intro l
    induction l with
    | nil =>
      intro states entries _ h
      rw [List.map_nil,List.append_nil]
      exact h
    | cons entry l ih =>
      intro states entries hmem h
      have hentry := hmem entry List.mem_cons_self
      have hfinal := ((hmore.keys entry.1).mp (List.mem_map_of_mem hentry)).1
      have hrest := ih _ _ (fun e he => hmem e (List.mem_cons_of_mem _ he)) (h.merge hfinal (hmore.describes entry hentry))
      rw [List.append_assoc] at hrest
      exact hrest
  apply (hfold partialStates states entries (fun _ h => h) h).congr
  intro order hfinal
  have hkeys : (partialStates.map fun entry => (entry.1,keyTotal entry.1 more)).map Prod.fst = partialStates.map Prod.fst := by
    rw [List.map_map]
    rfl
  have hmem : order ∈ partialStates.map Prod.fst ↔ order ∈ more.map Prod.fst :=
    (hmore.keys order).trans (and_iff_right hfinal)
  constructor
  · rw [List.map_append,List.map_append,List.mem_append,List.mem_append,hkeys,hmem]
  · rw [keyTotal_append,keyTotal_append]
    congr 1
    by_cases horder : order ∈ partialStates.map Prod.fst
    · obtain ⟨entry,hentry,rfl⟩ := List.mem_map.mp horder
      have hnodup : ((partialStates.map fun entry => (entry.1,keyTotal entry.1 more)).map Prod.fst).Nodup := hkeys ▸ hmore.nodup
      exact (eq_keyTotal_of_mem hnodup (List.mem_map_of_mem hentry)).symm
    · rw [keyTotal_of_notMem (hkeys ▸ horder),keyTotal_of_notMem (mt hmem.mpr horder)]

def chunkEntries (chunks : List (List LineitemBatch)) : List (ℤ × Multiset SupplierRow) :=
  chunks.flatten.flatMap fun batch => orderEntries batch.rows

/-- However the rows are split, the states tell of all of them. -/
theorem holds_lineitemOrderStates (finalOrders : ℤ → Bool) (chunks : List (List LineitemBatch)) :
    HoldsOrders finalOrders (lineitemOrderStates finalOrders chunks) (chunkEntries chunks) := by
  have hbatches : ∀ (batches : List LineitemBatch) states entries, HoldsOrders finalOrders states entries →
      HoldsOrders finalOrders (batches.foldl (lineitemOrderStatesInto finalOrders) states)
        (entries ++ batches.flatMap fun batch => orderEntries batch.rows) := by
    intro batches
    induction batches with
    | nil =>
      intro states entries h
      rw [List.flatMap_nil,List.append_nil]
      exact h
    | cons batch batches ih =>
      intro states entries h
      have hstep : HoldsOrders finalOrders (lineitemOrderStatesInto finalOrders states batch) (entries ++ orderEntries batch.rows) := by
        unfold lineitemOrderStatesInto
        split_ifs
        · exact holds_typedInto h batch.rows
        · exact holds_batchInto h batch.rows
      rw [List.flatMap_cons,← List.append_assoc]
      exact ih _ _ hstep
  have hchunks : ∀ (chunks : List (List LineitemBatch)) states entries, HoldsOrders finalOrders states entries →
      HoldsOrders finalOrders ((chunks.map fun batches => batches.foldl (lineitemOrderStatesInto finalOrders) []).foldl mergeOrderStates states)
        (entries ++ chunkEntries chunks) := by
    intro chunks
    unfold chunkEntries
    induction chunks with
    | nil =>
      intro states entries h
      rw [List.flatten_nil,List.flatMap_nil,List.append_nil]
      exact h
    | cons batches chunks ih =>
      intro states entries h
      rw [List.flatten_cons,List.flatMap_append,← List.append_assoc]
      exact ih _ _ (holds_mergeOrderStates h (hbatches batches [] [] (.empty finalOrders)))
  exact hchunks chunks [] [] (.empty finalOrders)

end Loops
end Dodam.Sql
