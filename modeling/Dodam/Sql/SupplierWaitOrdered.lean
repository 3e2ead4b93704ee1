import Dodam.Engine.OrderedChunks
import Dodam.Sql.SupplierWaitHash

/-! # The ordered path of the waiting suppliers

A chunk whose keys do not go down finishes each of its runs; merging the chunks counts the runs
of all rows.
-/
namespace Dodam.Sql
open Foundation Engine OrderedLineitemChunkState

variable {finalOrders suppliers : ℤ → Bool}

/-- A boundary is selected with its order, and tells of the rows of its run. -/
def StandsFor (finalOrders : ℤ → Bool) (order : ℤ) (state : SelectedOrderState) (rows : Multiset SupplierRow) : Prop :=
  state.selected = finalOrders order ∧ (finalOrders order = true → Describes rows state.state)

def runCount (finalOrders : ℤ → Bool) (suppkey : ℤ) (runs : List (ℤ × Multiset SupplierRow)) : ℕ :=
  (runs.map fun run => if finalOrders run.1 = true then counted suppkey run.2 else 0).sum

def CountsRuns (finalOrders suppliers : ℤ → Bool) (counts : List (ℤ × ℕ)) (runs : List (ℤ × Multiset SupplierRow)) : Prop :=
  ∀ suppkey, suppliers suppkey = true → keyTotal suppkey counts = runCount finalOrders suppkey runs

theorem runCount_append (suppkey : ℤ) (runs runs' : List (ℤ × Multiset SupplierRow)) :
    runCount finalOrders suppkey (runs ++ runs') = runCount finalOrders suppkey runs + runCount finalOrders suppkey runs' := by
  unfold runCount
  rw [List.map_append,List.sum_append]

theorem countsRuns_nil : CountsRuns finalOrders suppliers [] [] := fun _ _ => rfl

theorem CountsRuns.emit {counts : List (ℤ × ℕ)} {runs : List (ℤ × Multiset SupplierRow)} {order : ℤ} {state : SelectedOrderState}
    {rows : Multiset SupplierRow} (h : CountsRuns finalOrders suppliers counts runs) (hstate : StandsFor finalOrders order state rows) :
    CountsRuns finalOrders suppliers (emitSelected suppliers counts ⟨order,state⟩) ((order,rows) :: runs) := by
  intro suppkey hlisted
  unfold emitSelected runCount
  rw [List.map_cons,List.sum_cons]
  by_cases hfinal : finalOrders order = true
  · rw [if_pos (hstate.1.trans hfinal),if_pos hfinal,keyTotal_countQualifying (hstate.2 hfinal) counts hlisted,h suppkey hlisted]
    exact Nat.add_comm _ _
  · rw [if_neg (hstate.1 ▸ hfinal),if_neg hfinal,Nat.zero_add]
    exact h suppkey hlisted

theorem keyTotal_addCounts (suppkey : ℤ) (counts more : List (ℤ × ℕ)) :
    keyTotal suppkey (addCounts counts more) = keyTotal suppkey counts + keyTotal suppkey more := by
  unfold addCounts
  induction more generalizing counts with
  | nil => rfl
  | cons entry more ih =>
    rw [List.foldl_cons,ih,keyTotal_modifyAt fun _ => rfl,keyTotal_cons]
    exact Nat.add_assoc _ _ _

theorem mergesRuns_supplierWait (finalOrders suppliers : ℤ → Bool) :
    MergesRuns addCounts mergeSelected (emitSelected suppliers) (StandsFor finalOrders) (CountsRuns finalOrders suppliers) where
  merge hs ht := by
    refine ⟨?_,fun hfinal => (hs.2 hfinal).merge (ht.2 hfinal)⟩
    unfold mergeSelected
    rw [hs.1,ht.1,Bool.or_self]
  emit h hs := h.emit hs
  append hmiddle hout := by
    intro suppkey hlisted
    rw [keyTotal_addCounts,runCount_append,hmiddle suppkey hlisted,hout suppkey hlisted]
    exact Nat.add_comm _ _

/-- The finished runs of a chunk: the oldest waits for the merge, the others are counted. -/
inductive FinishedOf (finalOrders suppliers : ℤ → Bool) :
    Option (OrderedRowGroupBoundary ℤ SelectedOrderState) → List (ℤ × ℕ) → List (ℤ × Multiset SupplierRow) → Prop
  | empty {counts : List (ℤ × ℕ)} (h : CountsRuns finalOrders suppliers counts []) : FinishedOf finalOrders suppliers none counts []
  | oldest {counts : List (ℤ × ℕ)} {order : ℤ} {state : SelectedOrderState} {rows : Multiset SupplierRow}
    {runs : List (ℤ × Multiset SupplierRow)} (h : CountsRuns finalOrders suppliers counts runs)
    (hs : StandsFor finalOrders order state rows) :
    FinishedOf finalOrders suppliers (some ⟨order,state⟩) counts (runs ++ [(order,rows)])

/-- The rows of a chunk so far: the newest run is in progress. -/
inductive ChunkHolds (finalOrders suppliers : ℤ → Bool) : OrderedLineitemChunkState → List (ℤ × Multiset SupplierRow) → Prop
  | start : ChunkHolds finalOrders suppliers {} []
  | run {counts : List (ℤ × ℕ)} {order : ℤ} {selected : Bool} {state : SupplierWaitOrderState} {rows : Multiset SupplierRow}
    {first : Option (OrderedRowGroupBoundary ℤ SelectedOrderState)} {older entries : List (ℤ × Multiset SupplierRow)}
    (hruns : keyRuns entries = (order,rows) :: older) (hs : StandsFor finalOrders order ⟨selected,state⟩ rows)
    (hfinished : FinishedOf finalOrders suppliers first counts older) :
    ChunkHolds finalOrders suppliers ⟨counts,some order,selected,state,first,none,older.length + 1⟩ entries

variable {state : SupplierWaitOrderState}

theorem FinishedOf.finish {counts : List (ℤ × ℕ)} {order : ℤ} {selected : Bool}
    {rows : Multiset SupplierRow} {first : Option (OrderedRowGroupBoundary ℤ SelectedOrderState)} {older : List (ℤ × Multiset SupplierRow)}
    (h : FinishedOf finalOrders suppliers first counts older) (hs : StandsFor finalOrders order ⟨selected,state⟩ rows) :
    ∃ first' counts', orderedChunkFinishCurrent suppliers
        ⟨counts,some order,selected,state,first,none,older.length + 1⟩ =
        ⟨counts',some order,selected,state,first',none,older.length + 1⟩ ∧
      FinishedOf finalOrders suppliers first' counts' ((order,rows) :: older) := by
  unfold orderedChunkFinishCurrent
  dsimp only
  cases h with
  | empty h =>
    have hone : ([] : List (ℤ × Multiset SupplierRow)).length + 1 = 1 := rfl
    have hfirst : FinishedOf finalOrders suppliers (some ⟨order,⟨selected,state⟩⟩) counts ([] ++ [(order,rows)]) := .oldest h hs
    rw [if_pos hone]
    exact ⟨_,_,rfl,hfirst⟩
  | @oldest counts oldest first rows runs h hfirst =>
    have hmany : ¬(runs ++ [(oldest,rows)]).length + 1 = 1 := by simp
    have hemit := h.emit hs
    rw [if_neg hmany]
    unfold emitSelected at hemit
    split_ifs with hselected
    · rw [if_pos hselected] at hemit
      exact ⟨_,_,rfl,.oldest hemit hfirst⟩
    · rw [if_neg hselected] at hemit
      exact ⟨_,_,rfl,.oldest hemit hfirst⟩

theorem standsFor_first (finalOrders : ℤ → Bool) (row : ℤ × SupplierRow) :
    StandsFor finalOrders row.1
      ⟨finalOrders row.1,if (!finalOrders row.1) = true then {} else ({} : SupplierWaitOrderState).addRow row.2⟩ {row.2} := by
  refine ⟨rfl,?_⟩
  intro hfinal
  rw [hfinal,if_neg (by decide)]
  exact describes_row row.2

theorem StandsFor.addRow {order : ℤ} {selected : Bool} {rows : Multiset SupplierRow}
    (h : StandsFor finalOrders order ⟨selected,state⟩ rows) (row : SupplierRow) :
    StandsFor finalOrders order ⟨selected,if (!selected) = true then state else state.addRow row⟩ (rows + {row}) := by
  refine ⟨h.1,?_⟩
  intro hfinal
  have hselected : selected = true := h.1.trans hfinal
  rw [hselected,if_neg (by decide),addRow_eq_merge]
  exact (h.2 hfinal).merge (describes_row row)

/-- A row joins the run in progress, or finishes it. -/
theorem ChunkHolds.step {chunk chunk' : OrderedLineitemChunkState} {entries : List (ℤ × Multiset SupplierRow)} {row : ℤ × SupplierRow}
    (h : ChunkHolds finalOrders suppliers chunk entries) (hstep : chunk.step finalOrders suppliers row = some chunk') :
    ChunkHolds finalOrders suppliers chunk' (entries ++ [(row.1,{row.2})]) := by
  obtain ⟨switched,hswitch,rfl⟩ := Option.map_eq_some_iff.mp hstep
  unfold switch at hswitch
  cases h with
  | start =>
    cases hswitch
    have hnone : FinishedOf finalOrders suppliers none [] [] := .empty countsRuns_nil
    have hfirst := ChunkHolds.run (rfl : keyRuns [(row.1,({row.2} : Multiset SupplierRow))] = [(row.1,{row.2})])
      (standsFor_first finalOrders row) hnone
    split_ifs with hselected
    · rw [if_pos hselected] at hfirst
      exact hfirst
    · rw [if_neg hselected] at hfirst
      exact hfirst
  | @run counts order selected state rows first older entries hruns hs hfinished =>
    dsimp only at hswitch
    split_ifs at hswitch with hless hsame
    · -- another order begins
      cases hswitch
      have hdiffer : ((order,rows) : ℤ × Multiset SupplierRow).1 ≠ ((row.1,{row.2}) : ℤ × Multiset SupplierRow).1 := Ne.symm hsame
      have hpush : keyRuns (entries ++ [(row.1,{row.2})]) = (row.1,{row.2}) :: (order,rows) :: older := by
        rw [keyRuns_concat,hruns,pushRow_ne hdiffer]
      obtain ⟨first',counts',hfinish,hnewer⟩ := hfinished.finish hs
      have hnext := ChunkHolds.run hpush (standsFor_first finalOrders row) hnewer
      rw [hfinish]
      split_ifs with hselected
      · rw [if_pos hselected] at hnext
        exact hnext
      · rw [if_neg hselected] at hnext
        exact hnext
    · cases hswitch
      have hkey : order = row.1 := (not_not.mp hsame).symm
      have hsameKey : ((order,rows) : ℤ × Multiset SupplierRow).1 = ((row.1,{row.2}) : ℤ × Multiset SupplierRow).1 := hkey
      have hpush : keyRuns (entries ++ [(row.1,{row.2})]) = (order,rows + {row.2}) :: older := by
        rw [keyRuns_concat,hruns,pushRow_same hsameKey]
      have hnext := ChunkHolds.run hpush (hs.addRow row.2) hfinished
      split_ifs with hselected
      · rw [if_pos hselected] at hnext
        exact hnext
      · rw [if_neg hselected] at hnext
        exact hnext

def orderKeys (rows : List LineitemRow) : List ℤ := (presentLineitems rows).map Prod.fst

section Chunks

variable {chunk : OrderedLineitemChunkState} {chunk' : OrderedLineitemChunkState}
variable {entries : List (ℤ × Multiset SupplierRow)}

theorem ChunkHolds.rows
    {present : List (ℤ × SupplierRow)} (h : ChunkHolds finalOrders suppliers chunk entries)
    (hsteps : present.foldlM (OrderedLineitemChunkState.step finalOrders suppliers) chunk = some chunk') :
    ChunkHolds finalOrders suppliers chunk' (entries ++ present.map fun row => (row.1,{row.2})) := by
  induction present generalizing chunk entries with
  | nil =>
    cases hsteps
    rw [List.map_nil,List.append_nil]
    exact h
  | cons row present ih =>
    rw [List.foldlM_cons] at hsteps
    obtain ⟨next,hnext,hsteps⟩ := Option.bind_eq_some_iff.mp hsteps
    have hrest := ih (h.step hnext) hsteps
    rw [List.append_assoc] at hrest
    exact hrest

theorem ChunkHolds.batches
    {batches : List LineitemBatch} (h : ChunkHolds finalOrders suppliers chunk entries)
    (hsteps : batches.foldlM (orderedLineitemChunkView finalOrders suppliers) chunk = some chunk') :
    ChunkHolds finalOrders suppliers chunk' (entries ++ batches.flatMap fun batch => orderEntries batch.rows) := by
  induction batches generalizing chunk entries with
  | nil =>
    cases hsteps
    rw [List.flatMap_nil,List.append_nil]
    exact h
  | cons batch batches ih =>
    rw [List.foldlM_cons] at hsteps
    obtain ⟨next,hnext,hsteps⟩ := Option.bind_eq_some_iff.mp hsteps
    unfold orderedLineitemChunkView at hnext
    split_ifs at hnext with htyped
    rw [List.flatMap_cons,← List.append_assoc]
    exact ih (h.rows hnext) hsteps

theorem ChunkHolds.boundaries (h : ChunkHolds finalOrders suppliers chunk entries) :
    ChunkOf (StandsFor finalOrders) (CountsRuns finalOrders suppliers) chunk.boundaries (keyRuns entries) := by
  unfold OrderedLineitemChunkState.boundaries
  cases h with
  | start => exact .empty countsRuns_nil
  | @run counts order selected state rows first older entries hruns hs hfinished =>
    dsimp only
    rw [hruns]
    cases hfinished with
    | empty h =>
      have hone : ([] : List (ℤ × Multiset SupplierRow)).length + 1 ≤ 1 := le_rfl
      rw [if_pos hone]
      exact .single h hs
    | @oldest counts oldest first rows runs h hfirst =>
      have hmany : ¬(runs ++ [(oldest,rows)]).length + 1 ≤ 1 := by simp
      rw [if_neg hmany]
      exact .many h hfirst hs

theorem chunkEntries_eq (chunks : List (List LineitemBatch)) :
    chunkEntries chunks = (chunks.map fun batches => batches.flatMap fun batch => orderEntries batch.rows).flatten := by
  unfold chunkEntries
  induction chunks with
  | nil => rfl
  | cons batches chunks ih => rw [List.flatten_cons,List.flatMap_append,ih,List.map_cons,List.flatten_cons]

theorem countsRuns_ordered {chunks : List (List LineitemBatch)} {counts : List (ℤ × ℕ)}
    (h : lineitemSupplierWaitCountsOrdered finalOrders suppliers chunks = some counts) :
    CountsRuns finalOrders suppliers counts (keyRuns (chunkEntries chunks)) := by
  obtain ⟨states,hstates,rfl⟩ := Option.map_eq_some_iff.mp h
  have hchunks : List.Forall₂ (fun chunk rows => ChunkOf (StandsFor finalOrders) (CountsRuns finalOrders suppliers) chunk (keyRuns rows))
      (states.map boundaries)
      (chunks.map fun batches => batches.flatMap fun batch => orderEntries batch.rows) := by
    rw [List.forall₂_map_left_iff,List.forall₂_map_right_iff]
    have hall := (mapM_eq_some_iff.mp hstates).flip
    refine hall.imp fun chunk batches hchunk => ?_
    have hholds := ChunkHolds.start.batches hchunk
    rw [List.nil_append] at hholds
    exact hholds.boundaries
  rw [chunkEntries_eq]
  exact mergeOrderedRowGroupChunks_holds (mergesRuns_supplierWait finalOrders suppliers) countsRuns_nil hchunks

variable (finalOrders suppliers) in
theorem step_cases (chunk : OrderedLineitemChunkState) (row : ℤ × SupplierRow) :
    (∃ chunk', chunk.step finalOrders suppliers row = some chunk' ∧ chunk'.currentOrderkey = some row.1 ∧
      ∀ current ∈ chunk.currentOrderkey, current ≤ row.1) ∨
    (chunk.step finalOrders suppliers row = none ∧ ∃ current ∈ chunk.currentOrderkey, row.1 < current) := by
  have hselected : ∀ switched : OrderedLineitemChunkState,
      (if (!switched.currentSelected) = true then switched
        else { switched with currentState := switched.currentState.addRow row.2 }).currentOrderkey = switched.currentOrderkey := by
    intro switched
    split_ifs
    · rfl
    · rfl
  unfold step switch
  cases hcurrent : chunk.currentOrderkey with
  | none => exact Or.inl ⟨_,rfl,hselected _,nofun⟩
  | some current =>
    dsimp only
    split_ifs with hless hsame
    · exact Or.inr ⟨rfl,current,rfl,hless⟩
    · refine Or.inl ⟨_,rfl,hselected _,?_⟩
      rintro _ ⟨⟩
      exact not_lt.mp hless
    · refine Or.inl ⟨_,rfl,(hselected _).trans ?_,?_⟩
      · rw [hcurrent,not_not.mp hsame]
      · rintro _ ⟨⟩
        exact not_lt.mp hless

theorem isSome_rows_iff (present : List (ℤ × SupplierRow)) (chunk : OrderedLineitemChunkState) :
    (present.foldlM (step finalOrders suppliers) chunk).isSome ↔
      (chunk.currentOrderkey.toList ++ present.map Prod.fst).IsChain (· ≤ ·) := by
  induction present generalizing chunk with
  | nil =>
    refine iff_of_true rfl ?_
    cases chunk.currentOrderkey with
    | none => exact .nil
    | some current => exact .singleton current
  | cons row present ih =>
    rw [List.foldlM_cons]
    rcases step_cases finalOrders suppliers chunk row with ⟨next,hnext,hkey,hle⟩ | ⟨hnone,current,hcurrent,hless⟩
    · have hrest := ih next
      rw [hkey] at hrest
      rw [hnext]
      refine hrest.trans ?_
      cases hcurrent : chunk.currentOrderkey with
      | none => exact Iff.rfl
      | some current =>
        have hstep : current ≤ row.1 := hle current hcurrent
        exact (List.isChain_cons_cons.trans (and_iff_right hstep)).symm
    · have hkey : chunk.currentOrderkey = some current := hcurrent
      rw [hnone,hkey]
      refine iff_of_false Bool.false_ne_true ?_
      intro hchain
      exact not_le.mpr hless (List.isChain_cons_cons.mp hchain).1

theorem foldlM_lineitemBatches {batches : List LineitemBatch} (h : ∀ batch ∈ batches, batch.typed = true) (chunk : OrderedLineitemChunkState) :
    batches.foldlM (orderedLineitemChunkView finalOrders suppliers) chunk =
      (batches.flatMap fun batch => presentLineitems batch.rows).foldlM (step finalOrders suppliers) chunk := by
  induction batches generalizing chunk with
  | nil => rfl
  | cons batch batches ih =>
    have hview : orderedLineitemChunkView finalOrders suppliers chunk batch =
        (presentLineitems batch.rows).foldlM (step finalOrders suppliers) chunk :=
      if_pos (h batch List.mem_cons_self)
    rw [List.foldlM_cons,List.flatMap_cons,List.foldlM_append,hview]
    exact congrArg _ (funext fun next => ih (fun b hb => h b (List.mem_cons_of_mem _ hb)) next)

theorem typed_of_isSome {batches : List LineitemBatch}
    (h : (batches.foldlM (orderedLineitemChunkView finalOrders suppliers) chunk).isSome) :
    ∀ batch ∈ batches, batch.typed = true := by
  induction batches generalizing chunk with
  | nil => nofun
  | cons batch batches ih =>
    obtain ⟨last,hlast⟩ := Option.isSome_iff_exists.mp h
    rw [List.foldlM_cons] at hlast
    obtain ⟨next,hnext,hlast⟩ := Option.bind_eq_some_iff.mp hlast
    unfold orderedLineitemChunkView at hnext
    split_ifs at hnext with htyped
    exact List.forall_mem_cons.mpr ⟨htyped,ih (Option.isSome_iff_exists.mpr ⟨last,hlast⟩)⟩

def Answers (chunks : List (List LineitemBatch)) : Prop :=
  ∀ batches ∈ chunks, (∀ batch ∈ batches, batch.typed = true) ∧ (batches.flatMap fun batch => orderKeys batch.rows).IsChain (· ≤ ·)

theorem isSome_chunk_iff (batches : List LineitemBatch) :
    (batches.foldlM (orderedLineitemChunkView finalOrders suppliers) {}).isSome ↔
      (∀ batch ∈ batches, batch.typed = true) ∧ (batches.flatMap fun batch => orderKeys batch.rows).IsChain (· ≤ ·) := by
  have hkeys : (batches.flatMap fun batch => orderKeys batch.rows) =
      (batches.flatMap fun batch => presentLineitems batch.rows).map Prod.fst := (List.map_flatMap ..).symm
  rw [hkeys]
  constructor
  · intro h
    have htyped := typed_of_isSome h
    rw [foldlM_lineitemBatches htyped,isSome_rows_iff] at h
    exact ⟨htyped,h⟩
  · rintro ⟨htyped,hchain⟩
    rw [foldlM_lineitemBatches htyped,isSome_rows_iff]
    exact hchain

theorem isSome_ordered_iff (chunks : List (List LineitemBatch)) :
    (lineitemSupplierWaitCountsOrdered finalOrders suppliers chunks).isSome ↔ Answers chunks := by
  unfold lineitemSupplierWaitCountsOrdered Answers
  rw [Option.isSome_map]
  constructor
  · intro h batches hbatches
    obtain ⟨states,hstates⟩ := Option.isSome_iff_exists.mp h
    obtain ⟨state,-,hstate⟩ := exists_of_forall₂_left (mapM_eq_some_iff.mp hstates) hbatches
    exact (isSome_chunk_iff batches).mp (Option.isSome_iff_exists.mpr ⟨state,hstate⟩)
  · intro h
    have hall : ∀ batches ∈ chunks, ∃ state,
        batches.foldlM (orderedLineitemChunkView finalOrders suppliers) {} = some state :=
      fun batches hbatches => Option.isSome_iff_exists.mp ((isSome_chunk_iff batches).mpr (h batches hbatches))
    have : Nonempty OrderedLineitemChunkState := ⟨{}⟩
    choose! state hstate using hall
    rw [mapM_eq_some_map hstate]
    rfl

end Chunks
end Dodam.Sql
