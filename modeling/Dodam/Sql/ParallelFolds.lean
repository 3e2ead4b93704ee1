import Mathlib.Data.List.Perm.Basic
import Dodam.Execution.Error
import Dodam.Foundation.Window

/-! # Parallel folds over the batches of a stream

The batches of a stream are handed to workers in chunks. The results of the workers
come through a channel in any order and are merged in that order.
-/
namespace Dodam.Sql
open Foundation Execution

variable {Batch State Partial Output K V Captured : Type*}

/-- The order in which results come through the channel. -/
structure Arrival (α : Type*) where
  order : List α → List α
  perm : ∀ results, (order results).Perm results

/-- The closures of a fold; the variables that a clone of `consume_batch` captures are part of the state. -/
structure BatchFold (Batch State Partial Output : Type*) where
  buildState : State
  consumeBatch : Batch → State → Result (Option Unit × State)
  finish : State → Result Partial
  merge : Output → Partial → Output

/-- The chunks in the order in which workers are started. -/
def spawnChunks (chunkSize : ℕ) : List (Result Batch) → List Batch → List (List Batch) → Result (List (List Batch))
  | [], chunk, spawned => .ok (if chunk = [] then spawned else spawned ++ [chunk])
  | .error e :: _, _, _ => .error e
  | .ok batch :: stream, chunk, spawned =>
    if (chunk ++ [batch]).length < chunkSize then spawnChunks chunkSize stream (chunk ++ [batch]) spawned
    else spawnChunks chunkSize stream [] (spawned ++ [chunk ++ [batch]])

def receive (merge : Output → Partial → Output) : List (Result Partial) → Output → Result Output
  | [], output => .ok output
  | .error e :: _, _ => .error e
  | .ok part :: results, output => receive merge results (merge output part)

/-- `parallel_batch_fold`: every batch is mapped by a worker of its own. -/
def parallelBatchFold (arrival : Arrival (Result Partial)) (map : Batch → Result Partial) (merge : Output → Partial → Output)
    (stream : List (Result Batch)) (output : Output) : Result Output :=
  match stream.mapM id with
  | .error e => .error e
  | .ok batches => receive merge (arrival.order (batches.map map)) output

namespace BatchFold
variable (fold : BatchFold Batch State Partial Output)

/-- The worker of a chunk; a declined batch ends the chunk. -/
def worker : List Batch → State → Result Partial
  | [], s => fold.finish s
  | batch :: chunk, s =>
    match fold.consumeBatch batch s with
    | .error e => .error e
    | .ok (none, s) => fold.finish s
    | .ok (some (), s) => worker chunk s

/-- `parallel_batch_fold_view_chunks` -/
def parallelBatchFoldViewChunks (arrival : Arrival (Result Partial)) (chunkSize : ℕ) (stream : List (Result Batch))
    (output : Output) : Result Output :=
  match spawnChunks (max chunkSize 1) stream [] [] with
  | .error e => .error e
  | .ok chunks => receive fold.merge (arrival.order (chunks.map fun chunk => fold.worker chunk fold.buildState)) output

/-- The consumer accepts the batches one after the other. -/
inductive Accepts : State → List Batch → State → Prop
  | nil (s : State) : Accepts s [] s
  | cons {batch : Batch} {chunk : List Batch} {s s' t : State} (h : fold.consumeBatch batch s = .ok (some (), s'))
    (hs : Accepts s' chunk t) : Accepts s (batch :: chunk) t

def Consumed (chunk : List Batch) (part : Partial) : Prop :=
  ∃ t, fold.Accepts fold.buildState chunk t ∧ fold.finish t = .ok part

/-- An ordinary result is the merge over all chunks, each consumed as a whole; an error is one of the stream or of a call. -/
def Covered (Same : Output → Output → Prop) (chunkSize : ℕ) (stream : List (Result Batch)) (output : Output) :
    Result Output → Prop
  | .ok out => ∃ batches chunks partials, stream = batches.map .ok ∧ Chunks (max chunkSize 1) batches chunks ∧
      List.Forall₂ fold.Consumed chunks partials ∧ Same out (partials.foldl fold.merge output)
  | .error e => .error e ∈ stream ∨ (∃ batch s, .ok batch ∈ stream ∧ fold.consumeBatch batch s = .error e) ∨
      ∃ s, fold.finish s = .error e

/-- The stream fails, the worker of some chunk fails, or every batch of every chunk is accepted. -/
def FailsOrAccepts (chunkSize : ℕ) (stream : List (Result Batch)) : Prop :=
  (∃ e, .error e ∈ stream) ∨ ∃ batches chunks, stream = batches.map .ok ∧ Chunks (max chunkSize 1) batches chunks ∧
    ((∃ chunk ∈ chunks, ∃ e, fold.worker chunk fold.buildState = .error e) ∨
      ∀ chunk ∈ chunks, ∃ t, fold.Accepts fold.buildState chunk t)

end BatchFold

/-- The consumer of a collection of pairs, with the variables it captures. -/
structure PairCollector (Batch K V Captured : Type*) where
  captured : Captured
  consumeBatch : Batch → List (K × V) × Captured → Result (Option Unit × (List (K × V) × Captured))

namespace PairCollector
variable (collector : PairCollector Batch K V Captured)

def worker : List Batch → List (K × V) × Captured → Result (List (K × V))
  | [], s => .ok s.1
  | batch :: chunk, s =>
    match collector.consumeBatch batch s with
    | .error e => .error e
    | .ok (none, s) => .ok s.1
    | .ok (some (), s) => worker chunk s

/-- `parallel_batch_collect_pairs_view_chunks` -/
def parallelBatchCollectPairsViewChunks (arrival : Arrival (Result (List (K × V)))) (chunkSize : ℕ)
    (stream : List (Result Batch)) : Result (List (K × V)) :=
  match spawnChunks (max chunkSize 1) stream [] [] with
  | .error e => .error e
  | .ok chunks =>
    ((arrival.order (chunks.map fun chunk => collector.worker chunk ([],collector.captured))).mapM id).map List.flatten

def toFold : BatchFold Batch (List (K × V) × Captured) (List (K × V)) (List (K × V)) where
  buildState := ([],collector.captured)
  consumeBatch := collector.consumeBatch
  finish s := .ok s.1
  merge output part := output ++ part

end PairCollector

end Dodam.Sql

/-! ## What parallel folds cover

A fold has an ordinary result when no item of the stream and no worker fails. It is
the merge over all batches exactly when no consumer declines a batch, whatever the
order of the results.
-/
namespace Dodam.Sql
open Foundation Execution

variable {Batch State Partial Output K V Captured : Type*}

section Streams

theorem exists_map_ok_or_error {α : Type*} (items : List (Result α)) :
    (∃ values : List α, items = values.map .ok) ∨ ∃ e, .error e ∈ items := by
  induction items with
  | nil => exact .inl ⟨[],by simp⟩
  | cons item items ih =>
    cases item with
    | error e => exact .inr ⟨e,by simp⟩
    | ok value =>
      rcases ih with ⟨values,h⟩ | ⟨e,h⟩
      · exact .inl ⟨value :: values,by simp [h]⟩
      · exact .inr ⟨e,by simp [h]⟩

theorem spawnChunks_map {n : ℕ} {chunk : List Batch} (batches : List Batch) (spawned : List (List Batch)) (hlt : chunk.length < n) :
    ∃ chunks, spawnChunks n (batches.map .ok) chunk spawned = .ok (spawned ++ chunks) ∧ Chunks n (chunk ++ batches) chunks := by
  induction batches generalizing chunk spawned with
  | nil =>
    by_cases hchunk : chunk = []
    · exact ⟨[],by simp [spawnChunks,hchunk],by simpa [hchunk] using Chunks.nil⟩
    · exact ⟨[chunk],by simp [spawnChunks,hchunk],by simpa using Chunks.last hchunk hlt⟩
  | cons batch batches ih =>
    simp only [List.map_cons,spawnChunks]
    by_cases hshort : (chunk ++ [batch]).length < n
    · obtain ⟨chunks,hrun,hchunks⟩ := ih spawned hshort
      exact ⟨chunks,by rw [if_pos hshort,hrun],by simpa using hchunks⟩
    · have hfull : (chunk ++ [batch]).length = n := by
        simp only [List.length_append,List.length_singleton] at hshort ⊢
        omega
      have hpos : ([] : List Batch).length < n := by
        simp only [List.length_nil]
        omega
      obtain ⟨chunks,hrun,hchunks⟩ := ih (spawned ++ [chunk ++ [batch]]) hpos
      refine ⟨(chunk ++ [batch]) :: chunks,by simp only [if_neg hshort,hrun,List.append_assoc,List.singleton_append],?_⟩
      simpa using Chunks.full hfull hchunks

theorem chunkSize_pos (n : ℕ) : 0 < max n 1 := by omega

theorem exists_chunks (n : ℕ) (batches : List Batch) :
    ∃ chunks, spawnChunks (max n 1) (batches.map .ok) [] [] = .ok chunks ∧ Chunks (max n 1) batches chunks := by
  obtain ⟨chunks,hrun,hchunks⟩ := spawnChunks_map batches [] (show ([] : List Batch).length < max n 1 from chunkSize_pos n)
  exact ⟨chunks,by simpa using hrun,by simpa using hchunks⟩

variable {e : Failure} {results : List (Result Partial)}

theorem spawnChunks_error {n : ℕ} {stream : List (Result Batch)} (he : .error e ∈ stream) (chunk : List Batch)
    (spawned : List (List Batch)) : ∃ e', .error e' ∈ stream ∧ spawnChunks n stream chunk spawned = .error e' := by
  induction stream generalizing chunk spawned with
  | nil => simp at he
  | cons item stream ih =>
    cases item with
    | error e' => exact ⟨e',by simp,by simp [spawnChunks]⟩
    | ok batch =>
      have he' : .error e ∈ stream := by simpa using he
      obtain ⟨e₁,h₁,hrun₁⟩ := ih he' (chunk ++ [batch]) spawned
      obtain ⟨e₂,h₂,hrun₂⟩ := ih he' [] (spawned ++ [chunk ++ [batch]])
      by_cases hshort : (chunk ++ [batch]).length < n
      · exact ⟨e₁,by simp [h₁],by simp only [spawnChunks,if_pos hshort,hrun₁]⟩
      · exact ⟨e₂,by simp [h₂],by simp only [spawnChunks,if_neg hshort,hrun₂]⟩

theorem receive_map (merge : Output → Partial → Output) (parts : List Partial) (output : Output) :
    receive merge (parts.map .ok) output = .ok (parts.foldl merge output) := by
  induction parts generalizing output with
  | nil => simp [receive]
  | cons part parts ih => simp [receive,ih]

theorem mem_of_receive_error {merge : Output → Partial → Output} {output : Output} (h : receive merge results output = .error e) : .error e ∈ results := by
  induction results generalizing output with
  | nil => simp [receive] at h
  | cons result results ih =>
    cases result with
    | error e' => simp [receive] at h ⊢; simp [h]
    | ok part => simpa using ih h

theorem receive_error (merge : Output → Partial → Output)
    (he : .error e ∈ results) (output : Output) :
    ∃ e', .error e' ∈ results ∧ receive merge results output = .error e' := by
  induction results generalizing output with
  | nil => simp at he
  | cons result results ih =>
    cases result with
    | error e' => exact ⟨e',by simp,by simp [receive]⟩
    | ok part =>
      obtain ⟨e',h,hrun⟩ := ih (by simpa using he) (merge output part)
      exact ⟨e',by simp [h],by simp [receive,hrun]⟩

theorem Arrival.order_map (arrival : Arrival (Result Partial)) (parts : List Partial) :
    ∃ arrived : List Partial, arrival.order (parts.map .ok) = arrived.map .ok ∧ arrived.Perm parts := by
  have hperm := arrival.perm (parts.map .ok)
  rcases exists_map_ok_or_error (arrival.order (parts.map .ok)) with ⟨arrived,h⟩ | ⟨e,he⟩
  · rw [h] at hperm
    exact ⟨arrived,h,(List.map_perm_map_iff fun _ _ => Except.ok.inj).mp hperm⟩
  · simp [hperm.mem_iff] at he

theorem mapM_id_map {α : Type*} (values : List α) : (values.map (Except.ok (ε := Failure))).mapM id = .ok values := by
  apply mapM_ok_iff.mpr
  simp [List.forall₂_map_left_iff,List.forall₂_same]

theorem mapM_id_error {α : Type*} {items : List (Result α)} (he : .error e ∈ items) :
    ∃ e', .error e' ∈ items ∧ items.mapM id = .error e' := by
  induction items with
  | nil => simp at he
  | cons item items ih =>
    cases item with
    | error e' => exact ⟨e',by simp,by simp⟩
    | ok value =>
      obtain ⟨e',h,hrun⟩ := ih (by simpa using he)
      exact ⟨e',by simp [h],by rw [List.mapM_cons,hrun]; rfl⟩

end Streams

/-- The output is what the batches map to, merged in any order; there is none where a batch or its map fails. -/
theorem parallelBatchFold_eq_ok {map : Batch → Result Partial} {merge : Output → Partial → Output} [RightCommutative merge]
    {arrival : Arrival (Result Partial)} {stream : List (Result Batch)} {output out : Output} :
    parallelBatchFold arrival map merge stream output = .ok out ↔
      ∃ (batches : List Batch) (partials : List Partial), stream = batches.map .ok ∧
        batches.map map = partials.map .ok ∧ out = partials.foldl merge output := by
  have hmerged (batches : List Batch) {partials : List Partial} (hpartials : batches.map map = partials.map .ok) :
      parallelBatchFold arrival map merge (batches.map .ok) output = .ok (partials.foldl merge output) := by
    obtain ⟨arrived,horder,hperm⟩ := arrival.order_map partials
    simp only [parallelBatchFold,mapM_id_map,hpartials,horder,receive_map,hperm.foldl_eq output]
  constructor
  · intro h
    rcases exists_map_ok_or_error stream with ⟨batches,rfl⟩ | ⟨e,he⟩
    · rcases exists_map_ok_or_error (batches.map map) with ⟨partials,hpartials⟩ | ⟨e,he⟩
      · exact ⟨batches,partials,rfl,hpartials,Except.ok.inj (h.symm.trans (hmerged batches hpartials))⟩
      · obtain ⟨e',_,hrun⟩ := receive_error merge ((arrival.perm _).mem_iff.mpr he) output
        simp only [parallelBatchFold,mapM_id_map,hrun] at h
        cases h
    · obtain ⟨e',_,hrun⟩ := mapM_id_error he
      simp [parallelBatchFold,hrun] at h
  · rintro ⟨batches,partials,rfl,hpartials,rfl⟩
    exact hmerged batches hpartials

namespace BatchFold
variable {fold : BatchFold Batch State Partial Output}

variable {chunk batches : List Batch} {e : Failure} {chunks : List (List Batch)} {partials : List Partial}
variable {Same : Output → Output → Prop}

theorem worker_of_accepts {s t : State} (h : fold.Accepts s chunk t) :
    fold.worker chunk s = fold.finish t := by
  induction h with
  | nil => simp [worker]
  | cons h _ ih => simp [worker,h,ih]

theorem worker_error {s : State} (h : fold.worker chunk s = .error e) :
    (∃ batch ∈ chunk, ∃ s, fold.consumeBatch batch s = .error e) ∨ ∃ s, fold.finish s = .error e := by
  induction chunk generalizing s with
  | nil => exact .inr ⟨s,h⟩
  | cons batch chunk ih =>
    unfold worker at h
    split at h
    · next hcall =>
      cases h
      exact .inl ⟨batch,by simp,s,hcall⟩
    · next t _ => exact .inr ⟨t,h⟩
    · rcases ih h with ⟨b,hb,hcall⟩ | hfinish
      · exact .inl ⟨b,by simp [hb],hcall⟩
      · exact .inr hfinish

theorem run_of_workers {n : ℕ}
    (arrival : Arrival (Result Partial)) (output : Output) (hchunks : Chunks (max n 1) batches chunks)
    (hworkers : chunks.map (fun chunk => fold.worker chunk fold.buildState) = partials.map .ok) :
    ∃ arrived : List Partial, arrived.Perm partials ∧
      fold.parallelBatchFoldViewChunks arrival n (batches.map .ok) output = .ok (arrived.foldl fold.merge output) := by
  obtain ⟨arrived,horder,hperm⟩ := arrival.order_map partials
  obtain ⟨chunks',hspawn,hchunks'⟩ := exists_chunks n batches
  cases hchunks.unique (chunkSize_pos n) hchunks'
  refine ⟨arrived,hperm,?_⟩
  simp only [parallelBatchFoldViewChunks,hspawn,hworkers,horder,receive_map]

theorem run_of_worker_error {n : ℕ}
    (arrival : Arrival (Result Partial)) (output : Output) (hchunks : Chunks (max n 1) batches chunks) (hchunk : chunk ∈ chunks)
    (he : fold.worker chunk fold.buildState = .error e) :
    ∃ e', fold.parallelBatchFoldViewChunks arrival n (batches.map .ok) output = .error e' := by
  obtain ⟨chunks',hspawn,hchunks'⟩ := exists_chunks n batches
  cases hchunks.unique (chunkSize_pos n) hchunks'
  have hmem := (arrival.perm (chunks.map fun chunk => fold.worker chunk fold.buildState)).mem_iff.mpr
    (List.mem_map.mpr ⟨chunk,hchunk,he⟩)
  obtain ⟨e',_,hrun⟩ := receive_error fold.merge hmem output
  exact ⟨e',by simp only [parallelBatchFoldViewChunks,hspawn,hrun]⟩

theorem forall₂_consumed
    (hworkers : chunks.map (fun chunk => fold.worker chunk fold.buildState) = partials.map .ok)
    (haccepts : ∀ chunk ∈ chunks, ∃ t, fold.Accepts fold.buildState chunk t) : List.Forall₂ fold.Consumed chunks partials := by
  have hforall : List.Forall₂ (fun chunk part => fold.worker chunk fold.buildState = .ok part) chunks partials := by
    rw [← List.forall₂_eq_eq_eq,List.forall₂_map_left_iff,List.forall₂_map_right_iff] at hworkers
    exact hworkers
  apply (forall₂_congr_mem fun chunk hchunk part => ?_).mp hforall
  constructor
  · intro hpart
    obtain ⟨t,ht⟩ := haccepts chunk hchunk
    exact ⟨t,ht,by simpa [worker_of_accepts ht] using hpart⟩
  · rintro ⟨t,ht,hpart⟩
    simpa [worker_of_accepts ht] using hpart

theorem run_error {arrival : Arrival (Result Partial)} {n : ℕ} {stream : List (Result Batch)} {output : Output}
    (h : fold.parallelBatchFoldViewChunks arrival n stream output = .error e) :
    .error e ∈ stream ∨ (∃ batch s, .ok batch ∈ stream ∧ fold.consumeBatch batch s = .error e) ∨
      ∃ s, fold.finish s = .error e := by
  rcases exists_map_ok_or_error stream with ⟨batches,rfl⟩ | ⟨e',he⟩
  · obtain ⟨chunks,hspawn,hchunks⟩ := exists_chunks n batches
    simp only [parallelBatchFoldViewChunks,hspawn] at h
    have hmem := (arrival.perm _).mem_iff.mp (mem_of_receive_error h)
    obtain ⟨chunk,hchunk,hworker⟩ := List.mem_map.mp hmem
    rcases worker_error hworker with ⟨batch,hbatch,s,hcall⟩ | hfinish
    · have hmem : batch ∈ batches := by simpa [hchunks.flatten] using List.mem_flatten_of_mem hchunk hbatch
      exact .inr (.inl ⟨batch,s,by simpa using hmem,hcall⟩)
    · exact .inr (.inr hfinish)
  · obtain ⟨e'',h'',hrun⟩ := spawnChunks_error (n := max n 1) he [] []
    simp only [parallelBatchFoldViewChunks,hrun] at h
    cases h
    exact .inl h''

theorem accepts_of_covered {n : ℕ} {output out : Output} (hchunks : Chunks (max n 1) batches chunks)
    (hcovered : fold.Covered Same n (batches.map .ok) output (.ok out)) (hchunk : chunk ∈ chunks) :
    ∃ t, fold.Accepts fold.buildState chunk t := by
  obtain ⟨batches',chunks',partials,hstream,hchunks',hconsumed,_⟩ := hcovered
  cases List.map_injective_iff.mpr (fun _ _ => Except.ok.inj) hstream
  cases hchunks.unique (chunkSize_pos n) hchunks'
  obtain ⟨part,_,t,haccepts,_⟩ := exists_of_forall₂_left hconsumed hchunk
  exact ⟨t,haccepts⟩

/-- Results that do not depend on the order of the partials cover the stream exactly if it is given to consumers as a whole. -/
theorem covered_iff {output : Output}
    (hsame : ∀ arrived partials : List Partial, arrived.Perm partials →
      Same (arrived.foldl fold.merge output) (partials.foldl fold.merge output))
    (arrival : Arrival (Result Partial)) (n : ℕ) (stream : List (Result Batch)) :
    fold.Covered Same n stream output (fold.parallelBatchFoldViewChunks arrival n stream output) ↔
      fold.FailsOrAccepts n stream := by
  constructor
  · intro hcovered
    rcases exists_map_ok_or_error stream with ⟨batches,rfl⟩ | hfails
    · obtain ⟨chunks,_,hchunks⟩ := exists_chunks n batches
      refine .inr ⟨batches,chunks,by simp,hchunks,?_⟩
      by_cases hworker : ∃ chunk ∈ chunks, ∃ e, fold.worker chunk fold.buildState = .error e
      · exact .inl hworker
      right
      rcases exists_map_ok_or_error (chunks.map fun chunk => fold.worker chunk fold.buildState) with ⟨partials,hpartials⟩ | ⟨e,he⟩
      · obtain ⟨arrived,_,hrun⟩ := run_of_workers arrival output hchunks hpartials
        rw [hrun] at hcovered
        intro chunk hchunk
        exact accepts_of_covered hchunks hcovered hchunk
      · obtain ⟨chunk,hchunk,herror⟩ := List.mem_map.mp he
        exact absurd ⟨chunk,hchunk,e,herror⟩ hworker
    · exact .inl hfails
  · intro hcond
    cases hrun : fold.parallelBatchFoldViewChunks arrival n stream output with
    | error e => exact run_error hrun
    | ok out =>
      rcases hcond with ⟨e,he⟩ | ⟨batches,chunks,rfl,hchunks,hcond⟩
      · obtain ⟨e',_,hspawn⟩ := spawnChunks_error (n := max n 1) he [] []
        simp [parallelBatchFoldViewChunks,hspawn] at hrun
      rcases hcond with ⟨chunk,hchunk,e,he⟩ | haccepts
      · obtain ⟨e',hrun'⟩ := run_of_worker_error arrival output hchunks hchunk he
        simp [hrun'] at hrun
      rcases exists_map_ok_or_error (chunks.map fun chunk => fold.worker chunk fold.buildState) with ⟨partials,hpartials⟩ | ⟨e,he⟩
      · obtain ⟨arrived,hperm,hrun'⟩ := run_of_workers arrival output hchunks hpartials
        rw [hrun'] at hrun
        cases hrun
        exact ⟨batches,chunks,partials,by simp,hchunks,forall₂_consumed hpartials haccepts,hsame _ _ hperm⟩
      · obtain ⟨chunk,hchunk,he⟩ := List.mem_map.mp he
        obtain ⟨e',hrun'⟩ := run_of_worker_error arrival output hchunks hchunk he
        simp [hrun'] at hrun

end BatchFold

namespace PairCollector
variable {collector : PairCollector Batch K V Captured}

theorem worker_eq (chunk : List Batch) (s : List (K × V) × Captured) : collector.worker chunk s = collector.toFold.worker chunk s := by
  induction chunk generalizing s with
  | nil => simp [worker,BatchFold.worker,toFold]
  | cons batch chunk ih =>
    simp only [worker,BatchFold.worker,toFold] at ih ⊢
    split <;> simp_all

theorem flatten_mapM (results : List (Result (List (K × V)))) (output : List (K × V)) :
    (results.mapM id).map (fun partials => output ++ partials.flatten) = receive (fun output part => output ++ part) results output := by
  induction results generalizing output with
  | nil => simp [receive,Except.map]
  | cons result results ih =>
    cases result with
    | error e => simp [receive,Except.map]
    | ok part =>
      rw [receive,← ih]
      cases h : results.mapM id <;> simp [List.mapM_cons,h,Except.map]

theorem run_eq (arrival : Arrival (Result (List (K × V)))) (n : ℕ) (stream : List (Result Batch)) :
    collector.parallelBatchCollectPairsViewChunks arrival n stream =
      collector.toFold.parallelBatchFoldViewChunks arrival n stream [] := by
  unfold parallelBatchCollectPairsViewChunks BatchFold.parallelBatchFoldViewChunks
  cases spawnChunks (max n 1) stream [] [] with
  | error => simp
  | ok chunks =>
    simp only [worker_eq]
    exact flatten_mapM (arrival.order (chunks.map fun chunk => collector.toFold.worker chunk ([],collector.captured))) []

end PairCollector

/-- Both folds end with an error or cover the stream exactly if something fails or no consumer declines a batch. -/
theorem parallelFolds_covered_iff (fold : BatchFold Batch State Partial Output)
    (hmerge : ∀ output p q, fold.merge (fold.merge output p) q = fold.merge (fold.merge output q) p)
    (collector : PairCollector Batch K V Captured) (arrival : Arrival (Result Partial))
    (pairArrival : Arrival (Result (List (K × V)))) (chunkSize : ℕ) (stream : List (Result Batch)) (output : Output) :
    (fold.Covered (· = ·) chunkSize stream output (fold.parallelBatchFoldViewChunks arrival chunkSize stream output) ↔
        fold.FailsOrAccepts chunkSize stream) ∧
      (collector.toFold.Covered List.Perm chunkSize stream []
          (collector.parallelBatchCollectPairsViewChunks pairArrival chunkSize stream) ↔
        collector.toFold.FailsOrAccepts chunkSize stream) := by
  constructor
  · apply BatchFold.covered_iff
    intro arrived partials hperm
    have : RightCommutative fold.merge := ⟨hmerge⟩
    exact hperm.foldl_eq output
  · rw [PairCollector.run_eq]
    apply BatchFold.covered_iff
    intro arrived partials hperm
    have hflatten : ∀ parts : List (List (K × V)), parts.foldl collector.toFold.merge [] = parts.flatten := by
      intro parts
      have happend : parts.foldl (fun output part => output ++ id part) [] = [] ++ (parts.map id).flatten :=
        List.foldl_append_eq_append
      simpa [PairCollector.toFold] using happend
    simpa [hflatten] using hperm.flatten

/-- The consumer adds the batches up and declines a zero. -/
def sumFold : BatchFold ℕ ℕ ℕ ℕ where
  buildState := 0
  consumeBatch batch s := if batch = 0 then .ok (none,s) else .ok (some (),s + batch)
  finish := .ok
  merge output part := output + part

def pairCollector : PairCollector ℕ ℕ ℕ Unit where
  captured := ()
  consumeBatch batch s := if batch = 0 then .ok (none,s) else .ok (some (),s.1 ++ [(batch,batch)],())

def inOrder (α : Type*) : Arrival α where
  order results := results
  perm _ := .refl _

def reversed (α : Type*) : Arrival α where
  order := List.reverse
  perm := List.reverse_perm

theorem parallelBatchFold_eq_ok_squares :
    parallelBatchFold (reversed _) (fun n => .ok (n * n)) (fun a b : ℕ => a + b) [.ok 1,.ok 2,.ok 3] 0 = .ok 14 :=
  have : RightCommutative fun a b : ℕ => a + b := ⟨Nat.add_right_comm⟩
  parallelBatchFold_eq_ok.mpr ⟨[1,2,3],[1,4,9],rfl,rfl,rfl⟩

/-- Three batches in two chunks, the second chunk is merged first. -/
theorem parallelFolds_covered_three :
    (sumFold.Covered (· = ·) 2 [.ok 1,.ok 2,.ok 3] 0 (sumFold.parallelBatchFoldViewChunks (reversed _) 2 [.ok 1,.ok 2,.ok 3] 0) ↔
        sumFold.FailsOrAccepts 2 [.ok 1,.ok 2,.ok 3]) ∧
      (pairCollector.toFold.Covered List.Perm 2 [.ok 1,.ok 2,.ok 3] []
          (pairCollector.parallelBatchCollectPairsViewChunks (reversed _) 2 [.ok 1,.ok 2,.ok 3]) ↔
        pairCollector.toFold.FailsOrAccepts 2 [.ok 1,.ok 2,.ok 3]) := by
  refine parallelFolds_covered_iff sumFold ?_ pairCollector (reversed _) (reversed _) 2 [.ok 1,.ok 2,.ok 3] 0
  intro output p q
  exact Nat.add_right_comm output p q

theorem chunks_zero_five : Chunks (max 2 1) [0,5] [[0,5]] := by
  have hlen : ([0,5] : List ℕ).length = max 2 1 := by decide
  simpa using Chunks.full hlen Chunks.nil

/-- The declined batch ends its chunk, and the fold has an ordinary result without both batches. -/
theorem parallelFolds_declined :
    (sumFold.parallelBatchFoldViewChunks (inOrder _) 2 [.ok 0,.ok 5] 0 = .ok 0 ∧
        ¬sumFold.Covered (· = ·) 2 [.ok 0,.ok 5] 0 (.ok 0)) ∧
      pairCollector.parallelBatchCollectPairsViewChunks (inOrder _) 2 [.ok 0,.ok 5] = .ok [] ∧
        ¬pairCollector.toFold.Covered List.Perm 2 [.ok 0,.ok 5] [] (.ok []) := by
  refine ⟨⟨by decide,fun hcovered => ?_⟩,by decide,fun hcovered => ?_⟩
  · obtain ⟨t,haccepts⟩ := BatchFold.accepts_of_covered chunks_zero_five hcovered (List.mem_singleton_self _)
    cases haccepts with
    | cons h => simp [sumFold] at h
  · obtain ⟨t,haccepts⟩ := BatchFold.accepts_of_covered chunks_zero_five hcovered (List.mem_singleton_self _)
    cases haccepts with
    | cons h => simp [pairCollector,PairCollector.toFold] at h

end Dodam.Sql
