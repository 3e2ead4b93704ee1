import Mathlib.Algebra.Order.Ring.Rat
import Dodam.Foundation.KeyedTable
import Dodam.Foundation.Fold

/-! # Group sums over chunks of ordered row groups

Each chunk of row groups sums the runs of its keys and keeps its first and last run open; the
merge closes the open runs against their neighbours.
-/
namespace Dodam.Engine
open Foundation

structure OrderedRowGroupBoundary (κ σ : Type*) where
  key : κ
  state : σ

structure OrderedRowGroupChunk (κ σ ω : Type*) where
  output : ω
  first : Option (OrderedRowGroupBoundary κ σ)
  last : Option (OrderedRowGroupBoundary κ σ)

section Merge
variable {κ σ ω : Type*} [DecidableEq κ]
variable (mergeOutput : ω → ω → ω) (mergeState : σ → σ → σ)
variable (emitState : ω → OrderedRowGroupBoundary κ σ → ω)

/-- A boundary that the chunk does not continue is emitted, another one stays pending. -/
def closeBoundary (completeInChunk : Bool) (output : ω) (boundary : OrderedRowGroupBoundary κ σ) :
    ω × Option (OrderedRowGroupBoundary κ σ) :=
  if completeInChunk then (emitState output boundary,none) else (output,some boundary)

def mergeOrderedRowGroupBoundary (output : ω) (pending : Option (OrderedRowGroupBoundary κ σ))
    (boundary : OrderedRowGroupBoundary κ σ) (completeInChunk : Bool) :
    ω × Option (OrderedRowGroupBoundary κ σ) :=
  match pending with
  | some existing =>
    if existing.key = boundary.key then
      closeBoundary emitState completeInChunk output
        { existing with state := mergeState existing.state boundary.state }
    else closeBoundary emitState completeInChunk (emitState output existing) boundary
  | none => closeBoundary emitState completeInChunk output boundary

def mergeOrderedRowGroupChunk (s : ω × Option (OrderedRowGroupBoundary κ σ))
    (chunk : OrderedRowGroupChunk κ σ ω) : ω × Option (OrderedRowGroupBoundary κ σ) :=
  let (output,pending) := match chunk.first with
    | some first =>
      mergeOrderedRowGroupBoundary mergeState emitState s.1 s.2 first chunk.last.isSome
    | none => s
  (mergeOutput output chunk.output,chunk.last.or pending)

def mergeOrderedRowGroupChunks (chunks : List (OrderedRowGroupChunk κ σ ω)) (output : ω) : ω :=
  let (output,pending) := chunks.foldl (mergeOrderedRowGroupChunk mergeOutput mergeState emitState)
    (output,none)
  pending.elim output (emitState output)

end Merge

abbrev GroupBoundary := OrderedRowGroupBoundary ℤ ℚ

structure OrderedGroupSumPartial where
  first : Option GroupBoundary := none
  last : Option GroupBoundary := none
  middle : Map ℤ ℚ := ∅

namespace OrderedGroupSumPartial

def pushRun (p : OrderedGroupSumPartial) (key : ℤ) (sum threshold : ℚ) : OrderedGroupSumPartial :=
  let boundary : GroupBoundary := ⟨key,sum⟩
  match p.first with
  | none => { p with first := some boundary }
  | some _ =>
    match p.last with
    | some last =>
      if threshold < last.state then
        { p with last := some boundary, middle := p.middle.insert last.key last.state }
      else { p with last := some boundary }
    | none => { p with last := some boundary }

def finishCurrent (p : OrderedGroupSumPartial) (key : Option ℤ) (sum threshold : ℚ) :
    OrderedGroupSumPartial :=
  match key with
  | some key => p.pushRun key sum threshold
  | none => p

end OrderedGroupSumPartial

/-- The key and value columns of a batch; a column of another type is `none`. -/
structure OrderedBatch where
  keys : Option (List (Option ℤ))
  values : Option (ℤ × List (Option ℤ))

structure OrderedSumLoop where
  part : OrderedGroupSumPartial := {}
  currentKey : Option ℤ := none
  currentSum : ℚ := 0

/-- One row with a key and a value; `none` when the keys go down. -/
def OrderedSumLoop.pushRow (threshold : ℚ) (s : OrderedSumLoop) (row : ℤ × ℚ) : Option OrderedSumLoop :=
  match s.currentKey with
  | some current =>
    if row.1 < current then none
    else if row.1 = current then some { s with currentSum := s.currentSum + row.2 }
    else some
      { part := s.part.pushRun current s.currentSum threshold
        currentKey := some row.1
        currentSum := row.2 }
  | none => some { s with currentKey := some row.1, currentSum := row.2 }

/-- `10_f64.powi(scale)` as divisor of the raw value. -/
def decimalQuantity (scale value : ℤ) : ℚ := value / 10 ^ scale

/-- The rows of a batch that are looked at, with both values present. -/
def presentRows (scale : ℤ) (keys values : List (Option ℤ)) : List (ℤ × ℚ) :=
  (keys.zip values).filterMap fun row =>
    row.1.bind fun key => row.2.map fun value => (key,decimalQuantity scale value)

def consumeOrderedBatch (threshold : ℚ) (s : OrderedSumLoop) (batch : OrderedBatch) : Option OrderedSumLoop :=
  match batch.keys, batch.values with
  | some keys, some (scale,values) =>
    if keys.all Option.isSome ∧ values.all Option.isSome then
      ((keys.map (·.getD 0)).zip (values.map (·.getD 0))).foldlM (fun s row =>
        s.pushRow threshold (row.1,decimalQuantity scale row.2)) s
    else (presentRows scale keys values).foldlM (OrderedSumLoop.pushRow threshold) s
  | _, _ => none

def orderedI64DecimalGroupSumChunk (threshold : ℚ) (batches : List OrderedBatch) :
    Option OrderedGroupSumPartial :=
  (batches.foldlM (consumeOrderedBatch threshold) {}).map fun s =>
    s.part.finishCurrent s.currentKey s.currentSum threshold

/-- The check of one partial before the merge. -/
def orderedPartialChunk (part : OrderedGroupSumPartial) :
    Option (OrderedRowGroupChunk ℤ ℚ (Map ℤ ℚ)) :=
  let chunk : OrderedRowGroupChunk ℤ ℚ (Map ℤ ℚ) := ⟨part.middle,part.first,part.last⟩
  match part.first, part.last with
  | some first, some last => if last.key < first.key then none else some chunk
  | _, _ => some chunk

def mergeOrderedGroupSumPartials (partials : List (Option OrderedGroupSumPartial)) (threshold : ℚ) :
    Option (Map ℤ ℚ) :=
  (partials.mapM fun (part : Option OrderedGroupSumPartial) => part.bind orderedPartialChunk).map fun chunks =>
    mergeOrderedRowGroupChunks (fun output middle => middle ∪ output) (· + ·)
      (fun output boundary =>
        if threshold < boundary.state then output.insert boundary.key boundary.state else output)
      chunks ∅

def orderedI64DecimalGroupSumAbove (threshold : ℚ) (chunks : List (List OrderedBatch)) :
    Option (Map ℤ ℚ) :=
  mergeOrderedGroupSumPartials (chunks.map (orderedI64DecimalGroupSumChunk threshold)) threshold

end Dodam.Engine

/-! ## What the merged chunks hold

A chunk's partial keeps the runs of its rows: the oldest and the newest open, the
others already tested. Merging meets the newest run so far with the oldest of the
next chunk, so the map holds, for each key, the last run above the threshold of
all rows; that is the key's total unless the key returns after another one.
-/
namespace Dodam.Engine
open Foundation

def lastAbove (threshold : ℚ) (key : ℤ) (runs : List (ℤ × ℚ)) : Option ℚ :=
  (runs.find? fun run => run.1 = key ∧ threshold < run.2).map Prod.snd

section LastAbove
variable {threshold : ℚ} {key : ℤ}

@[simp] theorem lastAbove_nil : lastAbove threshold key [] = none := rfl

theorem lastAbove_cons (run : ℤ × ℚ) (runs : List (ℤ × ℚ)) :
    lastAbove threshold key (run :: runs) =
      if run.1 = key ∧ threshold < run.2 then some run.2 else lastAbove threshold key runs := by
  unfold lastAbove
  split_ifs with h
  · rw [List.find?_cons_of_pos (by simpa using h)]
    rfl
  · rw [List.find?_cons_of_neg (by simpa using h)]

theorem lastAbove_append (runs older : List (ℤ × ℚ)) :
    lastAbove threshold key (runs ++ older) =
      (lastAbove threshold key runs).or (lastAbove threshold key older) := by
  induction runs with
  | nil => rfl
  | cons run runs ih =>
    rw [List.cons_append,lastAbove_cons,lastAbove_cons,ih]
    split_ifs
    · rfl
    · rfl

end LastAbove

def HoldsRuns (threshold : ℚ) (output : Map ℤ ℚ) (runs : List (ℤ × ℚ)) : Prop :=
  ∀ key, output.lookup key = lastAbove threshold key runs

variable {output : Map ℤ ℚ} {runs : List (ℤ × ℚ)}

theorem HoldsRuns.insert {threshold : ℚ} (h : HoldsRuns threshold output runs) (run : ℤ × ℚ) :
    HoldsRuns threshold (if threshold < run.2 then output.insert run.1 run.2 else output) (run :: runs) := by
  intro key
  rw [lastAbove_cons,← h key]
  by_cases habove : threshold < run.2
  · rw [if_pos habove]
    by_cases hkey : run.1 = key
    · subst hkey
      rw [if_pos ⟨rfl,habove⟩,AList.lookup_insert]
    · rw [if_neg fun hc => hkey hc.1,AList.lookup_insert_ne (Ne.symm hkey)]
  · rw [if_neg habove,if_neg fun hc => habove hc.2]

theorem HoldsRuns.union {threshold : ℚ} {middle : Map ℤ ℚ} {older : List (ℤ × ℚ)}
    (h : HoldsRuns threshold middle runs) (ho : HoldsRuns threshold output older) :
    HoldsRuns threshold (middle ∪ output) (runs ++ older) := by
  intro key
  rw [lastAbove_append,← h key,← ho key]
  cases hm : middle.lookup key with
  | none => rw [AList.lookup_union_right (AList.lookup_eq_none.mp hm),Option.none_or]
  | some v => rw [AList.lookup_union_left (AList.lookup_isSome.mp (by rw [hm]; rfl)),hm,Option.some_or]

/-- The runs a partial stands for, the newest first. -/
inductive PartialOf (threshold : ℚ) : OrderedGroupSumPartial → List (ℤ × ℚ) → Prop
  | empty {middle : Map ℤ ℚ} (h : HoldsRuns threshold middle []) : PartialOf threshold ⟨none,none,middle⟩ []
  | single (run : ℤ × ℚ) {middle : Map ℤ ℚ} (h : HoldsRuns threshold middle []) :
    PartialOf threshold ⟨some ⟨run.1,run.2⟩,none,middle⟩ [run]
  | many (first last : ℤ × ℚ) {runs : List (ℤ × ℚ)} {middle : Map ℤ ℚ} (h : HoldsRuns threshold middle runs) :
    PartialOf threshold ⟨some ⟨first.1,first.2⟩,some ⟨last.1,last.2⟩,middle⟩ (last :: (runs ++ [first]))

theorem PartialOf.pushRun {threshold : ℚ} {p : OrderedGroupSumPartial}
    (h : PartialOf threshold p runs) (run : ℤ × ℚ) :
    PartialOf threshold (p.pushRun run.1 run.2 threshold) (run :: runs) := by
  cases h with
  | empty h => exact .single run h
  | single first h => exact .many first run h
  | many first last h =>
    have hinsert := h.insert last
    have hmany := PartialOf.many first run hinsert
    unfold OrderedGroupSumPartial.pushRun
    dsimp only
    split_ifs with habove
    · rw [if_pos habove] at hmany
      exact hmany
    · rw [if_neg habove] at hmany
      exact hmany

/-- The loop over the rows: the run in progress is the newest one. -/
def LoopOf (threshold : ℚ) (s : OrderedSumLoop) (rows : List (ℤ × ℚ)) : Prop :=
  match s.currentKey with
  | none => rows = [] ∧ PartialOf threshold s.part []
  | some current => ∃ older, keyRuns rows = (current,s.currentSum) :: older ∧ PartialOf threshold s.part older

theorem LoopOf.pushRow {threshold : ℚ} {s s' : OrderedSumLoop} {rows : List (ℤ × ℚ)} {row : ℤ × ℚ}
    (h : LoopOf threshold s rows) (hs : s.pushRow threshold row = some s') :
    LoopOf threshold s' (rows ++ [row]) := by
  unfold LoopOf at h
  unfold OrderedSumLoop.pushRow at hs
  cases hc : s.currentKey with
  | none =>
    rw [hc] at h hs
    obtain ⟨rfl,hpart⟩ := h
    cases hs
    exact ⟨[],rfl,hpart⟩
  | some current =>
    rw [hc] at h hs
    obtain ⟨older,hruns,hpart⟩ := h
    dsimp only at hs
    split_ifs at hs with hless hsame
    · cases hs
      exact ⟨older,by rw [keyRuns_concat,hruns,pushRow_same hsame.symm],hpart⟩
    · cases hs
      refine ⟨(current,s.currentSum) :: older,?_,hpart.pushRun (current,s.currentSum)⟩
      rw [keyRuns_concat,hruns,pushRow_ne (Ne.symm hsame)]

/-- The rows of a batch whose columns have the right types. -/
def OrderedBatch.rows (batch : OrderedBatch) : List (ℤ × ℚ) :=
  match batch.keys, batch.values with
  | some keys, some (scale,values) => presentRows scale keys values
  | _, _ => []

theorem presentRows_of_isSome (scale : ℤ) {keys values : List (Option ℤ)}
    (hkeys : ∀ k ∈ keys, k.isSome = true) (hvalues : ∀ v ∈ values, v.isSome = true) :
    presentRows scale keys values =
      ((keys.map (·.getD 0)).zip (values.map (·.getD 0))).map fun row => (row.1,decimalQuantity scale row.2) := by
  induction keys generalizing values with
  | nil => rfl
  | cons key keys ih =>
    cases values with
    | nil => rfl
    | cons value values =>
      obtain ⟨k,rfl⟩ := Option.isSome_iff_exists.mp (hkeys key (by simp))
      obtain ⟨v,rfl⟩ := Option.isSome_iff_exists.mp (hvalues value (by simp))
      have hrest := ih (fun k hk => hkeys k (List.mem_cons_of_mem _ hk))
        (fun v hv => hvalues v (List.mem_cons_of_mem _ hv))
      unfold presentRows at hrest ⊢
      rw [List.zip_cons_cons,List.filterMap_cons,hrest]
      rfl

theorem consumeOrderedBatch_rows {threshold : ℚ} {s s' : OrderedSumLoop} {batch : OrderedBatch}
    (h : consumeOrderedBatch threshold s batch = some s') :
    batch.rows.foldlM (OrderedSumLoop.pushRow threshold) s = some s' := by
  rcases batch with ⟨_ | keys,_ | ⟨scale,values⟩⟩
  · cases h
  · cases h
  · cases h
  · unfold consumeOrderedBatch at h
    dsimp only at h
    split_ifs at h with hpresent
    · show (presentRows scale keys values).foldlM _ s = _
      rw [presentRows_of_isSome scale (List.all_eq_true.mp hpresent.1) (List.all_eq_true.mp hpresent.2),
        List.foldlM_map]
      exact h
    · exact h

variable {seen : List (ℤ × ℚ)}

theorem LoopOf.foldlM {threshold : ℚ} {s s' : OrderedSumLoop} {rows : List (ℤ × ℚ)}
    (h : LoopOf threshold s seen) (hs : rows.foldlM (OrderedSumLoop.pushRow threshold) s = some s') :
    LoopOf threshold s' (seen ++ rows) := by
  induction rows generalizing s seen with
  | nil =>
    cases hs
    simpa using h
  | cons row rows ih =>
    rw [List.foldlM_cons] at hs
    obtain ⟨t,ht,hs⟩ := Option.bind_eq_some_iff.mp hs
    simpa using ih (h.pushRow ht) hs

theorem LoopOf.batches {threshold : ℚ} {s s' : OrderedSumLoop}
    {batches : List OrderedBatch} (h : LoopOf threshold s seen)
    (hs : batches.foldlM (consumeOrderedBatch threshold) s = some s') :
    LoopOf threshold s' (seen ++ batches.flatMap OrderedBatch.rows) := by
  induction batches generalizing s seen with
  | nil =>
    cases hs
    simpa using h
  | cons batch batches ih =>
    rw [List.foldlM_cons] at hs
    obtain ⟨t,ht,hs⟩ := Option.bind_eq_some_iff.mp hs
    simpa using ih (h.foldlM (consumeOrderedBatch_rows ht)) hs

variable {part : OrderedGroupSumPartial}

theorem partialOf_chunk {threshold : ℚ} {batches : List OrderedBatch}
    (h : orderedI64DecimalGroupSumChunk threshold batches = some part) :
    PartialOf threshold part (keyRuns (batches.flatMap OrderedBatch.rows)) := by
  obtain ⟨s,hs,rfl⟩ := Option.map_eq_some_iff.mp h
  have hstart : LoopOf threshold {} [] := ⟨rfl,.empty fun _ => rfl⟩
  have hloop := hstart.batches hs
  rw [List.nil_append] at hloop
  unfold LoopOf at hloop
  cases hc : s.currentKey with
  | none =>
    rw [hc] at hloop
    rw [hloop.1]
    exact hloop.2
  | some current =>
    rw [hc] at hloop
    obtain ⟨older,hruns,hpart⟩ := hloop
    rw [hruns]
    exact hpart.pushRun (current,s.currentSum)

/-- Between two chunks the newest run is pending and the map holds the others. -/
def MergeOf (threshold : ℚ) (s : Map ℤ ℚ × Option GroupBoundary) (runs : List (ℤ × ℚ)) : Prop :=
  match s.2 with
  | none => runs = [] ∧ HoldsRuns threshold s.1 []
  | some pending => ∃ older, runs = (pending.key,pending.state) :: older ∧ HoldsRuns threshold s.1 older

/-- The closures of `merge_ordered_group_sum_partials`. -/
def emitAbove (threshold : ℚ) (output : Map ℤ ℚ) (boundary : GroupBoundary) : Map ℤ ℚ :=
  if threshold < boundary.state then output.insert boundary.key boundary.state else output

variable {s : Map ℤ ℚ × Option GroupBoundary}

theorem MergeOf.boundary {threshold : ℚ}
    (h : MergeOf threshold s runs) (run : ℤ × ℚ) : MergeOf threshold
        (mergeOrderedRowGroupBoundary (· + ·) (emitAbove threshold) s.1 s.2 ⟨run.1,run.2⟩ false) (pushRow runs run) ∧
      ∃ output, mergeOrderedRowGroupBoundary (· + ·) (emitAbove threshold) s.1 s.2 ⟨run.1,run.2⟩ true =
          (output,none) ∧ HoldsRuns threshold output (pushRow runs run) := by
  rcases s with ⟨output,_ | pending⟩
  · obtain ⟨rfl,hholds⟩ := h
    exact ⟨⟨[],rfl,hholds⟩,_,rfl,hholds.insert run⟩
  · obtain ⟨older,rfl,hholds⟩ := h
    unfold mergeOrderedRowGroupBoundary
    dsimp only
    split_ifs with hkey
    · rw [pushRow_same (show (pending.key,pending.state).1 = run.1 from hkey)]
      exact ⟨⟨older,rfl,hholds⟩,_,rfl,hholds.insert (pending.key,pending.state + run.2)⟩
    · rw [pushRow_ne (show (pending.key,pending.state).1 ≠ run.1 from hkey)]
      have hinsert := hholds.insert (pending.key,pending.state)
      exact ⟨⟨_,rfl,hinsert⟩,_,rfl,hinsert.insert run⟩

theorem MergeOf.chunk {threshold : ℚ} {rows : List (ℤ × ℚ)} (h : MergeOf threshold s (keyRuns seen))
    (hpart : PartialOf threshold part (keyRuns rows)) :
    MergeOf threshold (mergeOrderedRowGroupChunk (fun output middle => middle ∪ output) (· + ·)
      (emitAbove threshold) s ⟨part.middle,part.first,part.last⟩) (keyRuns (seen ++ rows)) := by
  rw [keyRuns_append]
  have hchain := keyRuns_isChain rows
  generalize keyRuns rows = new at hpart hchain
  cases hpart with
  | @empty middle hm =>
    rcases s with ⟨output,_ | pending⟩
    · exact ⟨h.1,hm.union h.2⟩
    · obtain ⟨older,hruns,hholds⟩ := h
      exact ⟨older,hruns,hm.union hholds⟩
  | @single run middle hm =>
    obtain ⟨hfalse,-⟩ := h.boundary run
    unfold mergeOrderedRowGroupChunk
    dsimp only [Option.isSome_none]
    generalize mergeOrderedRowGroupBoundary (· + ·) (emitAbove threshold) s.1 s.2 ⟨run.1,run.2⟩ false = t
      at hfalse
    rcases t with ⟨output,_ | pending⟩
    · exact ⟨hfalse.1,hm.union hfalse.2⟩
    · obtain ⟨older,hruns,hholds⟩ := hfalse
      exact ⟨older,hruns,hm.union hholds⟩
  | @many first last runs middle hm =>
    obtain ⟨-,output,htrue,hholds⟩ := h.boundary first
    obtain ⟨newest,older,hpush,hkey⟩ := exists_pushRow_eq_cons (keyRuns seen) first
    have hreverse : (last :: (runs ++ [first])).reverse = first :: (runs.reverse ++ [last]) := by simp
    -- from the chunk's first run on, no two neighbours meet
    have hforward : (newest :: (runs.reverse ++ [last])).IsChain (fun r s => r.1 ≠ s.1) := by
      have hrev := List.isChain_reverse.mpr hchain
      rw [hreverse] at hrev
      rw [List.isChain_cons] at hrev ⊢
      exact ⟨fun y hy => hkey ▸ hrev.1 y hy,hrev.2⟩
    rw [hreverse,List.foldl_cons,hpush,foldl_pushRow_of_isChain hforward]
    unfold mergeOrderedRowGroupChunk
    dsimp only [Option.isSome_some]
    rw [htrue]
    refine ⟨runs ++ newest :: older,by simp,?_⟩
    rw [← hpush]
    exact hm.union hholds

theorem orderedPartialChunk_eq {chunk : OrderedRowGroupChunk ℤ ℚ (Map ℤ ℚ)}
    (h : orderedPartialChunk part = some chunk) : chunk = ⟨part.middle,part.first,part.last⟩ := by
  unfold orderedPartialChunk at h
  rcases part with ⟨_ | first,_ | last,middle⟩
  · exact (Option.some.inj h).symm
  · exact (Option.some.inj h).symm
  · exact (Option.some.inj h).symm
  · dsimp only at h
    split_ifs at h
    exact (Option.some.inj h).symm

theorem MergeOf.chunks {threshold : ℚ} {batches : List (List OrderedBatch)}
    {chunks : List (OrderedRowGroupChunk ℤ ℚ (Map ℤ ℚ))} (h : MergeOf threshold s (keyRuns seen))
    (hchunks : List.Forall₂ (fun bs chunk => ∃ part, orderedI64DecimalGroupSumChunk threshold bs = some part ∧
      chunk = ⟨part.middle,part.first,part.last⟩) batches chunks) :
    MergeOf threshold (chunks.foldl (mergeOrderedRowGroupChunk (fun output middle => middle ∪ output) (· + ·)
      (emitAbove threshold)) s) (keyRuns (seen ++ batches.flatten.flatMap OrderedBatch.rows)) := by
  induction hchunks generalizing s seen with
  | nil => simpa using h
  | @cons bs chunk batches chunks hchunk _ ih =>
    obtain ⟨part,hpart,rfl⟩ := hchunk
    rw [List.flatten_cons,List.flatMap_append,← List.append_assoc]
    exact ih (h.chunk (partialOf_chunk hpart))

theorem orderedGroupSum_lookup {threshold : ℚ} {chunks : List (List OrderedBatch)}
    (h : orderedI64DecimalGroupSumAbove threshold chunks = some output) :
    HoldsRuns threshold output (keyRuns (chunks.flatten.flatMap OrderedBatch.rows)) := by
  obtain ⟨merged,hmerged,rfl⟩ := Option.map_eq_some_iff.mp h
  have hforall : List.Forall₂ (fun bs chunk => ∃ part, orderedI64DecimalGroupSumChunk threshold bs = some part ∧
      chunk = ⟨part.middle,part.first,part.last⟩) chunks merged := by
    have hall := mapM_eq_some_iff.mp hmerged
    rw [List.forall₂_map_left_iff] at hall
    refine hall.imp fun bs chunk hchunk => ?_
    obtain ⟨part,hpart,hcheck⟩ := Option.bind_eq_some_iff.mp hchunk
    exact ⟨part,hpart,orderedPartialChunk_eq hcheck⟩
  have hstart : MergeOf threshold (∅,none) (keyRuns []) := ⟨rfl,fun _ => rfl⟩
  have hmerge := hstart.chunks hforall
  rw [List.nil_append] at hmerge
  show HoldsRuns threshold (mergeOrderedRowGroupChunks (fun output middle => middle ∪ output) (· + ·)
    (emitAbove threshold) merged ∅) _
  unfold mergeOrderedRowGroupChunks
  generalize merged.foldl (mergeOrderedRowGroupChunk (fun output middle => middle ∪ output) (· + ·)
      (emitAbove threshold)) (∅,none) = t at hmerge ⊢
  rcases t with ⟨output,_ | pending⟩
  · rw [hmerge.1]
    exact hmerge.2
  · obtain ⟨older,hruns,hholds⟩ := hmerge
    rw [hruns]
    exact hholds.insert (pending.key,pending.state)

/-- The map has exactly the keys of the rows whose total exceeds the threshold, with their totals. -/
def HoldsTotals (threshold : ℚ) (output : Map ℤ ℚ) (rows : List (ℤ × ℚ)) : Prop :=
  ∀ key, output.lookup key =
    if key ∈ rows.map Prod.fst ∧ threshold < keyTotal key rows then some (keyTotal key rows) else none

/-- For every key, the runs of its rows tell its total: the newest run above the threshold has all of
it, or neither a run nor the total is above. -/
def RunsTellTotals (threshold : ℚ) (rows : List (ℤ × ℚ)) : Prop :=
  ∀ key ∈ rows.map Prod.fst,
    (∀ run ∈ keyRuns rows, run.1 = key → run.2 ≤ threshold) ∧ keyTotal key rows ≤ threshold ∨
    ∃ newer run older, keyRuns rows = newer ++ run :: older ∧ run.1 = key ∧ threshold < run.2 ∧
      run.2 = keyTotal key rows ∧ ∀ r ∈ newer, r.1 = key → r.2 ≤ threshold

theorem lastAbove_eq_none {threshold : ℚ} {key : ℤ} :
    lastAbove threshold key runs = none ↔ ∀ run ∈ runs, run.1 = key → run.2 ≤ threshold := by
  unfold lastAbove
  rw [Option.map_eq_none_iff,List.find?_eq_none]
  simp

theorem lastAbove_eq_some {threshold : ℚ} {key : ℤ} {total : ℚ} :
    lastAbove threshold key runs = some total ↔ ∃ newer run older, runs = newer ++ run :: older ∧
      run.1 = key ∧ threshold < run.2 ∧ run.2 = total ∧ ∀ r ∈ newer, r.1 = key → r.2 ≤ threshold := by
  induction runs with
  | nil => simp
  | cons run runs ih =>
    rw [lastAbove_cons]
    split_ifs with h
    · constructor
      · intro he
        exact ⟨[],run,runs,rfl,h.1,h.2,Option.some.inj he,by simp⟩
      · rintro ⟨newer,r,older,he,hkey,habove,htotal,hnewer⟩
        cases newer with
        | nil =>
          cases he
          rw [htotal]
        | cons first newer =>
          cases he
          exact absurd (hnewer run (by simp) h.1) (not_le.mpr h.2)
    · rw [ih]
      constructor
      · rintro ⟨newer,r,older,rfl,hkey,habove,htotal,hnewer⟩
        refine ⟨run :: newer,r,older,rfl,hkey,habove,htotal,List.forall_mem_cons.mpr ⟨fun hrun => ?_,hnewer⟩⟩
        exact not_lt.mp fun hlt => h ⟨hrun,hlt⟩
      · rintro ⟨newer,r,older,he,hkey,habove,htotal,hnewer⟩
        cases newer with
        | nil =>
          cases he
          exact absurd ⟨hkey,habove⟩ h
        | cons first newer =>
          cases he
          exact ⟨newer,r,older,rfl,hkey,habove,htotal,fun r hr => hnewer r (List.mem_cons_of_mem _ hr)⟩

/-- The merge of the chunks equals one pass over all rows exactly when the runs tell the totals. -/
theorem orderedGroupSum_holdsTotals_iff {threshold : ℚ} {chunks : List (List OrderedBatch)} {output : Map ℤ ℚ}
    (h : orderedI64DecimalGroupSumAbove threshold chunks = some output) :
    HoldsTotals threshold output (chunks.flatten.flatMap OrderedBatch.rows) ↔
      RunsTellTotals threshold (chunks.flatten.flatMap OrderedBatch.rows) := by
  refine forall_congr' fun key => ?_
  rw [orderedGroupSum_lookup h key]
  by_cases hkey : key ∈ (chunks.flatten.flatMap OrderedBatch.rows).map Prod.fst
  · simp only [hkey,true_and,forall_const]
    split_ifs with habove
    · rw [lastAbove_eq_some]
      exact ⟨.inr,fun hor => hor.resolve_left fun hcon => absurd habove (not_lt.mpr hcon.2)⟩
    · rw [lastAbove_eq_none]
      constructor
      · intro hnone
        exact .inl ⟨hnone,not_lt.mp habove⟩
      · rintro (hleft | ⟨newer,run,older,-,-,hrun,htotal,-⟩)
        · exact hleft.1
        · exact absurd (htotal ▸ hrun) habove
  · -- a key without rows has no run either
    have hnone : lastAbove threshold key (keyRuns (chunks.flatten.flatMap OrderedBatch.rows)) = none := by
      rw [lastAbove_eq_none]
      intro run hrun he
      obtain ⟨row,hrow,hrowkey⟩ := exists_row_of_mem_keyRuns run hrun
      exact absurd (List.mem_map.mpr ⟨row,hrow,hrowkey.trans he⟩) hkey
    simp only [hkey,false_and,if_false,hnone,false_imp_iff]

theorem runsTellTotals_of_sorted {threshold : ℚ} {rows : List (ℤ × ℚ)}
    (h : rows.Pairwise (fun r s => r.1 ≤ s.1)) : RunsTellTotals threshold rows := by
  have hpair := keyRuns_pairwise h
  have htotal : ∀ run ∈ keyRuns rows, run.2 = keyTotal run.1 rows := fun run hrun => by
    rw [← keyTotal_keyRuns,keyTotal_of_pairwise hpair hrun]
  intro key hkey
  by_cases habove : ∃ run ∈ keyRuns rows, run.1 = key ∧ threshold < run.2
  · obtain ⟨run,hrun,rfl,hlt⟩ := habove
    obtain ⟨newer,older,hsplit⟩ := List.append_of_mem hrun
    refine .inr ⟨newer,run,older,hsplit,rfl,hlt,htotal run hrun,?_⟩
    intro r hr hsame
    rw [hsplit,List.pairwise_append] at hpair
    exact absurd hsame (hpair.2.2 r hr run (by simp)).ne'
  · have hbelow : ∀ run ∈ keyRuns rows, run.1 = key → run.2 ≤ threshold :=
      fun run hrun hkey => not_lt.mp fun hlt => habove ⟨run,hrun,hkey,hlt⟩
    obtain ⟨row,hrow,rfl⟩ := List.mem_map.mp hkey
    obtain ⟨run,hrun,hrunkey⟩ := exists_run_of_mem row hrow
    exact .inl ⟨hbelow,by rw [← hrunkey,← htotal run hrun]; exact hbelow run hrun hrunkey⟩

/-- Chunks in order, with an empty one and a key that goes on in a later one. -/
def orderedChunks : List (List OrderedBatch) :=
  [[⟨some [some 1,some 2,none],some (0,[some 5,some 4,some 9])⟩],[],
    [⟨some [some 2,some 3],some (0,[some 3,none])⟩]]

theorem orderedGroupSum_orderedChunks :
    ∃ output, orderedI64DecimalGroupSumAbove 6 orderedChunks = some output ∧
      HoldsTotals 6 output (orderedChunks.flatten.flatMap OrderedBatch.rows) := by
  obtain ⟨output,houtput⟩ := Option.isSome_iff_exists.mp
    (show (orderedI64DecimalGroupSumAbove 6 orderedChunks).isSome = true by decide +kernel)
  exact ⟨output,houtput,(orderedGroupSum_holdsTotals_iff houtput).mpr
    (runsTellTotals_of_sorted (by decide +kernel))⟩

/-- Key 1 returns in the second chunk after key 2. -/
def returningChunks : List (List OrderedBatch) :=
  [[⟨some [some 1,some 2],some (0,[some 5,some 1])⟩],[⟨some [some 1],some (0,[some 7])⟩]]

/-- Each chunk is in order, but the total 12 of key 1 is given as 7. -/
theorem returningChunks_loses :
    ∃ output, orderedI64DecimalGroupSumAbove 6 returningChunks = some output ∧
      ¬HoldsTotals 6 output (returningChunks.flatten.flatMap OrderedBatch.rows) := by
  obtain ⟨output,houtput⟩ := Option.isSome_iff_exists.mp
    (show (orderedI64DecimalGroupSumAbove 6 returningChunks).isSome = true by decide +kernel)
  refine ⟨output,houtput,fun h => ?_⟩
  have hlookup : (orderedI64DecimalGroupSumAbove 6 returningChunks).map (·.lookup 1) = some (some 7) := by
    decide +kernel
  have htotal : (if (1 : ℤ) ∈ (returningChunks.flatten.flatMap OrderedBatch.rows).map Prod.fst ∧
      6 < keyTotal 1 (returningChunks.flatten.flatMap OrderedBatch.rows)
      then some (keyTotal 1 (returningChunks.flatten.flatMap OrderedBatch.rows)) else none) = some 12 := by
    decide +kernel
  rw [houtput,Option.map_some,h 1,htotal] at hlookup
  exact absurd hlookup (by decide +kernel)

end Dodam.Engine
