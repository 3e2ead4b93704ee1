import Dodam.Engine.OrderedGroupSum

/-! # Merging chunks of ordered row groups

A chunk keeps its oldest and its newest run open and has given out the others.
-/
namespace Dodam.Engine
open Foundation

variable {κ σ ω α : Type*} [DecidableEq κ] [AddSemigroup α]

/-- States stand for runs and outputs hold them, so that the operations of a merge keep this. -/
structure MergesRuns (mergeOutput : ω → ω → ω) (mergeState : σ → σ → σ) (emitState : ω → OrderedRowGroupBoundary κ σ → ω)
    (Stands : κ → σ → α → Prop) (Holds : ω → List (κ × α) → Prop) : Prop where
  merge : ∀ {key s t a b}, Stands key s a → Stands key t b → Stands key (mergeState s t) (a + b)
  emit : ∀ {output runs key s a}, Holds output runs → Stands key s a → Holds (emitState output ⟨key,s⟩) ((key,a) :: runs)
  append : ∀ {output middle runs new}, Holds middle new → Holds output runs → Holds (mergeOutput output middle) (new ++ runs)

section Chunks
variable (Stands : κ → σ → α → Prop) (Holds : ω → List (κ × α) → Prop)

/-- The runs a chunk stands for, the newest first. -/
inductive ChunkOf : OrderedRowGroupChunk κ σ ω → List (κ × α) → Prop
  | empty {output : ω} (h : Holds output []) : ChunkOf ⟨output,none,none⟩ []
  | single {output : ω} {key : κ} {s : σ} {a : α} (h : Holds output []) (hs : Stands key s a) :
    ChunkOf ⟨output,some ⟨key,s⟩,none⟩ [(key,a)]
  | many {output : ω} {first last : κ} {s t : σ} {a b : α} {runs : List (κ × α)} (h : Holds output runs)
    (hs : Stands first s a) (ht : Stands last t b) :
    ChunkOf ⟨output,some ⟨first,s⟩,some ⟨last,t⟩⟩ ((last,b) :: (runs ++ [(first,a)]))

/-- Between two chunks the newest run is pending and the output holds the others. -/
inductive PendingOf : ω × Option (OrderedRowGroupBoundary κ σ) → List (κ × α) → Prop
  | start {output : ω} (h : Holds output []) : PendingOf (output,none) []
  | pending {output : ω} {key : κ} {s : σ} {a : α} {older : List (κ × α)} (h : Holds output older) (hs : Stands key s a) :
    PendingOf (output,some ⟨key,s⟩) ((key,a) :: older)

end Chunks

variable {Stands : κ → σ → α → Prop} {Holds : ω → List (κ × α) → Prop}
variable {mergeOutput : ω → ω → ω} {mergeState : σ → σ → σ} {emitState : ω → OrderedRowGroupBoundary κ σ → ω}

theorem PendingOf.boundary {p : ω × Option (OrderedRowGroupBoundary κ σ)} {runs : List (κ × α)} {key : κ} {s : σ} {a : α}
    (hops : MergesRuns mergeOutput mergeState emitState Stands Holds) (h : PendingOf Stands Holds p runs) (hs : Stands key s a) :
    PendingOf Stands Holds (mergeOrderedRowGroupBoundary mergeState emitState p.1 p.2 ⟨key,s⟩ false) (pushRow runs (key,a)) ∧
      ∃ output, mergeOrderedRowGroupBoundary mergeState emitState p.1 p.2 ⟨key,s⟩ true = (output,none) ∧
        Holds output (pushRow runs (key,a)) := by
  cases h with
  | start h => exact ⟨.pending h hs,_,rfl,hops.emit h hs⟩
  | @pending output existing t b older h ht =>
    unfold mergeOrderedRowGroupBoundary
    by_cases hkey : existing = key
    · subst hkey
      have hmerged := hops.merge ht hs
      have hsame : ((existing,b) : κ × α).1 = ((existing,a) : κ × α).1 := rfl
      rw [pushRow_same hsame]
      dsimp only
      rw [if_pos rfl,if_pos rfl]
      exact ⟨.pending h hmerged,_,rfl,hops.emit h hmerged⟩
    · have hemit := hops.emit h ht
      have hdiffer : ((existing,b) : κ × α).1 ≠ ((key,a) : κ × α).1 := hkey
      rw [pushRow_ne hdiffer]
      dsimp only
      rw [if_neg hkey,if_neg hkey]
      exact ⟨.pending hemit hs,_,rfl,hops.emit hemit hs⟩

theorem PendingOf.chunk {p : ω × Option (OrderedRowGroupBoundary κ σ)} {seen rows : List (κ × α)} {chunk : OrderedRowGroupChunk κ σ ω}
    (hops : MergesRuns mergeOutput mergeState emitState Stands Holds) (h : PendingOf Stands Holds p (keyRuns seen))
    (hchunk : ChunkOf Stands Holds chunk (keyRuns rows)) :
    PendingOf Stands Holds (mergeOrderedRowGroupChunk mergeOutput mergeState emitState p chunk) (keyRuns (seen ++ rows)) := by
  rw [keyRuns_append]
  have hchain := keyRuns_isChain rows
  generalize keyRuns rows = new at hchunk hchain
  cases hchunk with
  | empty hout =>
    rw [List.reverse_nil,List.foldl_nil]
    generalize keyRuns seen = runs at h ⊢
    cases h with
    | start h => exact .start (hops.append hout h)
    | pending h hs => exact .pending (hops.append hout h) hs
  | @single output key s a hout hs =>
    obtain ⟨hfalse,-⟩ := h.boundary hops hs
    rw [List.reverse_singleton,List.foldl_cons,List.foldl_nil]
    unfold mergeOrderedRowGroupChunk
    dsimp only [Option.isSome_none]
    generalize mergeOrderedRowGroupBoundary mergeState emitState p.1 p.2 ⟨key,s⟩ false = q at hfalse ⊢
    generalize pushRow (keyRuns seen) (key,a) = runs at hfalse ⊢
    cases hfalse with
    | start h => exact .start (hops.append hout h)
    | pending h hs => exact .pending (hops.append hout h) hs
  | @many output first last s t a b runs hout hs ht =>
    obtain ⟨-,emitted,htrue,hholds⟩ := h.boundary hops hs
    obtain ⟨newest,older,hpush,hkey⟩ := exists_pushRow_eq_cons (keyRuns seen) (first,a)
    have hreverse : ((last,b) :: (runs ++ [(first,a)])).reverse = (first,a) :: (runs.reverse ++ [(last,b)]) := by simp
    -- from the chunk's first run on, no two neighbours meet
    have hforward : (newest :: (runs.reverse ++ [(last,b)])).IsChain (fun r s => r.1 ≠ s.1) := by
      have hrev := List.isChain_reverse.mpr hchain
      rw [hreverse,List.isChain_cons] at hrev
      exact List.isChain_cons.mpr ⟨fun y hy => hkey ▸ hrev.1 y hy,hrev.2⟩
    have hruns : (runs.reverse ++ [(last,b)]).reverse ++ newest :: older = (last,b) :: (runs ++ newest :: older) := by simp
    rw [hreverse,List.foldl_cons,hpush,foldl_pushRow_of_isChain hforward,hruns,← hpush]
    unfold mergeOrderedRowGroupChunk
    dsimp only [Option.isSome_some]
    rw [htrue]
    exact .pending (hops.append hout hholds) ht

theorem mergeOrderedRowGroupChunks_holds {chunks : List (OrderedRowGroupChunk κ σ ω)} {rows : List (List (κ × α))} {output : ω}
    (hops : MergesRuns mergeOutput mergeState emitState Stands Holds) (hout : Holds output [])
    (hchunks : List.Forall₂ (fun chunk rows => ChunkOf Stands Holds chunk (keyRuns rows)) chunks rows) :
    Holds (mergeOrderedRowGroupChunks mergeOutput mergeState emitState chunks output) (keyRuns rows.flatten) := by
  have hfold : ∀ (p : ω × Option (OrderedRowGroupBoundary κ σ)) (seen : List (κ × α)), PendingOf Stands Holds p (keyRuns seen) →
      PendingOf Stands Holds (chunks.foldl (mergeOrderedRowGroupChunk mergeOutput mergeState emitState) p)
        (keyRuns (seen ++ rows.flatten)) := by
    induction hchunks with
    | nil =>
      intro p seen h
      rw [List.flatten_nil,List.append_nil]
      exact h
    | cons hchunk _ ih =>
      intro p seen h
      rw [List.flatten_cons,← List.append_assoc]
      exact ih _ _ (h.chunk hops hchunk)
  have hall := hfold (output,none) [] (.start hout)
  rw [List.nil_append] at hall
  unfold mergeOrderedRowGroupChunks
  generalize chunks.foldl (mergeOrderedRowGroupChunk mergeOutput mergeState emitState) (output,none) = p at hall
  generalize keyRuns rows.flatten = runs at hall ⊢
  cases hall with
  | start h => exact h
  | pending h hs => exact hops.emit h hs

end Dodam.Engine
