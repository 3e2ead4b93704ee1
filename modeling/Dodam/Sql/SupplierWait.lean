import Dodam.Engine.OrderedGroupSum

/-! # Counts of waiting suppliers

For each final order one small state remembers a supplier, a supplier that was late, and whether
there were others.
-/
namespace Dodam.Sql
open Foundation Engine

/-- A row of the lineitem table; dates are days. -/
structure LineitemRow where
  orderkey : Option ℤ
  suppkey : Option ℤ
  receiptdate : Option ℤ
  commitdate : Option ℤ
deriving DecidableEq

structure SupplierRow where
  suppkey : ℤ
  late : Bool
deriving DecidableEq

def LineitemRow.late (row : LineitemRow) : Bool :=
  match row.receiptdate,row.commitdate with
  | some receipt,some commit => decide (commit < receipt)
  | _,_ => false

def presentLineitems (rows : List LineitemRow) : List (ℤ × SupplierRow) :=
  rows.filterMap fun row => row.orderkey.bind fun orderkey => row.suppkey.map fun suppkey => (orderkey,⟨suppkey,row.late⟩)

structure SupplierWaitOrderState where
  firstSupplier : ℤ := 0
  lateSupplier : ℤ := 0
  lateRowCount : UInt32 := 0
  hasSupplier : Bool := false
  hasMultipleSuppliers : Bool := false
  hasLateSupplier : Bool := false
  hasMultipleLateSuppliers : Bool := false
deriving DecidableEq

namespace SupplierWaitOrderState

def addSupplier (state : SupplierWaitOrderState) (suppkey : ℤ) : SupplierWaitOrderState :=
  if !state.hasSupplier then { state with firstSupplier := suppkey, hasSupplier := true }
  else if suppkey ≠ state.firstSupplier then { state with hasMultipleSuppliers := true }
  else state

def addLateSupplier (state : SupplierWaitOrderState) (suppkey : ℤ) : SupplierWaitOrderState :=
  if !state.hasLateSupplier then { state with lateSupplier := suppkey, hasLateSupplier := true, lateRowCount := 1 }
  else if suppkey = state.lateSupplier then { state with lateRowCount := state.lateRowCount + 1 }
  else { state with hasMultipleLateSuppliers := true }

def hasSingleLateSupplier (state : SupplierWaitOrderState) : Bool := state.hasLateSupplier && !state.hasMultipleLateSuppliers

/-- The part of `merge` about suppliers. -/
def mergeSuppliers (state other : SupplierWaitOrderState) : SupplierWaitOrderState :=
  if other.hasSupplier then
    if other.hasMultipleSuppliers then { state.addSupplier other.firstSupplier with hasMultipleSuppliers := true }
    else state.addSupplier other.firstSupplier
  else state

/-- The part of `merge` about late suppliers. -/
def mergeLateSuppliers (state other : SupplierWaitOrderState) : SupplierWaitOrderState :=
  if !other.hasLateSupplier then state
  else if !state.hasLateSupplier then
    { state with
      lateSupplier := other.lateSupplier
      hasLateSupplier := true
      lateRowCount := other.lateRowCount
      hasMultipleLateSuppliers := state.hasMultipleLateSuppliers || other.hasMultipleLateSuppliers }
  else if state.lateSupplier = other.lateSupplier then
    { state with
      lateRowCount := state.lateRowCount + other.lateRowCount
      hasMultipleLateSuppliers := state.hasMultipleLateSuppliers || other.hasMultipleLateSuppliers }
  else { state with hasMultipleLateSuppliers := true }

def merge (state other : SupplierWaitOrderState) : SupplierWaitOrderState :=
  (state.mergeSuppliers other).mergeLateSuppliers other

def addRow (state : SupplierWaitOrderState) (row : SupplierRow) : SupplierWaitOrderState :=
  if row.late then (state.addSupplier row.suppkey).addLateSupplier row.suppkey else state.addSupplier row.suppkey

def ofRows (rows : List SupplierRow) : SupplierWaitOrderState := rows.foldl addRow {}

end SupplierWaitOrderState

/-- A batch of the scan: columns of 64-bit integers and of dates, or of other types, given by their values. -/
structure LineitemBatch where
  typed : Bool
  rows : List LineitemRow
deriving DecidableEq

def countQualifyingSupplierWaitOrder (suppliers : ℤ → Bool) (counts : List (ℤ × ℕ)) (state : SupplierWaitOrderState) : List (ℤ × ℕ) :=
  if !state.hasMultipleSuppliers || !state.hasSingleLateSupplier then counts
  else if !suppliers state.lateSupplier then counts
  else modifyAt (· + state.lateRowCount.toNat) 0 counts state.lateSupplier

section HashStates
variable (finalOrders : ℤ → Bool)

structure LineitemRunLoop where
  states : List (ℤ × SupplierWaitOrderState)
  currentOrderkey : Option ℤ := none
  currentOrderSelected : Bool := false
  currentState : SupplierWaitOrderState := {}

namespace LineitemRunLoop

def flushRunState (loop : LineitemRunLoop) : LineitemRunLoop :=
  match loop.currentOrderkey with
  | none => loop
  | some orderkey =>
    { loop with
      states := modifyAt (fun state => state.merge loop.currentState) {} loop.states orderkey
      currentState := {} }

def switch (loop : LineitemRunLoop) (orderkey : ℤ) : LineitemRunLoop :=
  match loop.currentOrderkey with
  | some current =>
    if current ≠ orderkey then
      { (if loop.currentOrderSelected then loop.flushRunState else loop) with
        currentOrderSelected := finalOrders orderkey
        currentOrderkey := some orderkey }
    else loop
  | none => { loop with currentOrderSelected := finalOrders orderkey, currentOrderkey := some orderkey }

def step (loop : LineitemRunLoop) (row : ℤ × SupplierRow) : LineitemRunLoop :=
  let loop := loop.switch finalOrders row.1
  if !loop.currentOrderSelected then loop else { loop with currentState := loop.currentState.addRow row.2 }

end LineitemRunLoop

/-- The loops over arrays and over vectors, with or without NULLs. -/
def lineitemOrderStatesTypedInto (states : List (ℤ × SupplierWaitOrderState)) (rows : List LineitemRow) :
    List (ℤ × SupplierWaitOrderState) :=
  let loop := (presentLineitems rows).foldl (LineitemRunLoop.step finalOrders) { states := states }
  if loop.currentOrderSelected then loop.flushRunState.states else loop.states

def lineitemOrderStatesBatchInto (states : List (ℤ × SupplierWaitOrderState)) (rows : List LineitemRow) :
    List (ℤ × SupplierWaitOrderState) :=
  (presentLineitems rows).foldl (fun states row =>
    if finalOrders row.1 then modifyAt (fun state => state.addRow row.2) {} states row.1 else states) states

def lineitemOrderStatesInto (states : List (ℤ × SupplierWaitOrderState)) (batch : LineitemBatch) : List (ℤ × SupplierWaitOrderState) :=
  if batch.typed then lineitemOrderStatesTypedInto finalOrders states batch.rows
  else lineitemOrderStatesBatchInto finalOrders states batch.rows

def mergeOrderStates (states batchStates : List (ℤ × SupplierWaitOrderState)) : List (ℤ × SupplierWaitOrderState) :=
  batchStates.foldl (fun states entry => modifyAt (fun state => state.merge entry.2) {} states entry.1) states

/-- The partial maps of the chunks, in the order in which they come, merged into one. -/
def lineitemOrderStates (chunks : List (List LineitemBatch)) : List (ℤ × SupplierWaitOrderState) :=
  (chunks.map fun batches => batches.foldl (lineitemOrderStatesInto finalOrders) []).foldl mergeOrderStates []

def supplierWaitCountsHash (suppliers : ℤ → Bool) (chunks : List (List LineitemBatch)) : List (ℤ × ℕ) :=
  ((lineitemOrderStates finalOrders chunks).map Prod.snd).foldl (countQualifyingSupplierWaitOrder suppliers) []

end HashStates

section Ordered
variable (finalOrders suppliers : ℤ → Bool)

structure SelectedOrderState where
  selected : Bool
  state : SupplierWaitOrderState

structure OrderedLineitemChunkState where
  counts : List (ℤ × ℕ) := []
  currentOrderkey : Option ℤ := none
  currentSelected : Bool := false
  currentState : SupplierWaitOrderState := {}
  first : Option (OrderedRowGroupBoundary ℤ SelectedOrderState) := none
  last : Option (OrderedRowGroupBoundary ℤ SelectedOrderState) := none
  orderCount : ℕ := 0

namespace OrderedLineitemChunkState

def orderedChunkFinishCurrent (chunk : OrderedLineitemChunkState) : OrderedLineitemChunkState :=
  match chunk.currentOrderkey with
  | none => chunk
  | some orderkey =>
    if chunk.orderCount = 1 then { chunk with first := some ⟨orderkey,chunk.currentSelected,chunk.currentState⟩ }
    else if chunk.currentSelected then
      { chunk with counts := countQualifyingSupplierWaitOrder suppliers chunk.counts chunk.currentState }
    else chunk

/-- Another order comes; `none` when its key is smaller. -/
def switch (chunk : OrderedLineitemChunkState) (orderkey : ℤ) : Option OrderedLineitemChunkState :=
  match chunk.currentOrderkey with
  | some current =>
    if orderkey < current then none
    else if orderkey ≠ current then
      some { chunk.orderedChunkFinishCurrent suppliers with
        currentOrderkey := some orderkey
        currentSelected := finalOrders orderkey
        currentState := {}
        orderCount := chunk.orderCount + 1 }
    else some chunk
  | none => some { chunk with currentOrderkey := some orderkey, currentSelected := finalOrders orderkey, orderCount := 1 }

def step (chunk : OrderedLineitemChunkState) (row : ℤ × SupplierRow) : Option OrderedLineitemChunkState :=
  (chunk.switch finalOrders suppliers row.1).map fun chunk =>
    if !chunk.currentSelected then chunk else { chunk with currentState := chunk.currentState.addRow row.2 }

/-- A batch of a chunk; only columns of the expected types are read. -/
def orderedLineitemChunkView (chunk : OrderedLineitemChunkState) (batch : LineitemBatch) : Option OrderedLineitemChunkState :=
  if batch.typed then (presentLineitems batch.rows).foldlM (step finalOrders suppliers) chunk else none

/-- The chunk with its last order, as the merge takes it. -/
def boundaries (chunk : OrderedLineitemChunkState) : OrderedRowGroupChunk ℤ SelectedOrderState (List (ℤ × ℕ)) :=
  match chunk.currentOrderkey with
  | none => ⟨chunk.counts,chunk.first,chunk.last⟩
  | some orderkey =>
    if chunk.orderCount ≤ 1 then ⟨chunk.counts,some ⟨orderkey,chunk.currentSelected,chunk.currentState⟩,chunk.last⟩
    else ⟨chunk.counts,chunk.first,some ⟨orderkey,chunk.currentSelected,chunk.currentState⟩⟩

end OrderedLineitemChunkState

def addCounts (counts chunkCounts : List (ℤ × ℕ)) : List (ℤ × ℕ) :=
  chunkCounts.foldl (fun counts entry => modifyAt (· + entry.2) 0 counts entry.1) counts

def mergeSelected (left right : SelectedOrderState) : SelectedOrderState :=
  ⟨left.selected || right.selected,left.state.merge right.state⟩

def emitSelected (counts : List (ℤ × ℕ)) (boundary : OrderedRowGroupBoundary ℤ SelectedOrderState) : List (ℤ × ℕ) :=
  if boundary.state.selected then countQualifyingSupplierWaitOrder suppliers counts boundary.state.state else counts

def mergeOrderedLineitemChunks (chunks : List OrderedLineitemChunkState) : List (ℤ × ℕ) :=
  mergeOrderedRowGroupChunks addCounts mergeSelected (emitSelected suppliers) (chunks.map OrderedLineitemChunkState.boundaries) []

/-- The counts of the ordered path, which may decline. -/
def lineitemSupplierWaitCountsOrdered (chunks : List (List LineitemBatch)) : Option (List (ℤ × ℕ)) :=
  (chunks.mapM fun (batches : List LineitemBatch) =>
    batches.foldlM (OrderedLineitemChunkState.orderedLineitemChunkView finalOrders suppliers) {}).map (mergeOrderedLineitemChunks suppliers)

end Ordered
end Dodam.Sql
