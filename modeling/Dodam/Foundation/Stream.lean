import Mathlib.Data.List.Basic

/-! # Pull streams

A stream is a state with a step that returns an item, an error, or the end.
`Drains` relates a state to all the items pulled until the end; a stream that
reports an error drains to nothing.
-/
namespace Dodam.Foundation
variable {σ ε β : Type*}

/-- Pulling until the end yields the listed items and no error. -/
inductive Drains (next : σ → Option (Except ε β) × σ) : σ → List β → Prop
  | done {s : σ} (h : (next s).1 = none) : Drains next s []
  | more {s : σ} {b : β} {out : List β} (h : (next s).1 = some (.ok b))
      (rest : Drains next (next s).2 out) : Drains next s (b :: out)

namespace Drains
variable {next : σ → Option (Except ε β) × σ} {s s' : σ} {out out' : List β}

theorem unique (h : Drains next s out) (h' : Drains next s out') : out = out' := by
  induction h generalizing out' with
  | done h =>
    cases h' with
    | done => rfl
    | more h' =>
      rw [h] at h'
      cases h'
  | more h rest ih =>
    cases h' with
    | done h' =>
      rw [h] at h'
      cases h'
    | more h' rest' =>
      rw [h] at h'
      cases h'
      rw [ih rest']

theorem congr (h : next s = next s') : Drains next s out ↔ Drains next s' out := by
  constructor
  · intro hd
    cases hd with
    | done h' => exact .done (by rw [← h]; exact h')
    | more h' rest => exact .more (by rw [← h]; exact h') (by rw [← h]; exact rest)
  · intro hd
    cases hd with
    | done h' => exact .done (by rw [h]; exact h')
    | more h' rest => exact .more (by rw [h]; exact h') (by rw [h]; exact rest)

theorem step {b : β} (h : next s = (some (.ok b),s')) (rest : Drains next s' out) :
    Drains next s (b :: out) :=
  .more (by rw [h]) (by rw [h]; exact rest)

theorem of_step {b : β} (h : next s = (some (.ok b),s')) (hd : Drains next s out) :
    ∃ out', Drains next s' out' := by
  cases hd with
  | done h' =>
    rw [h] at h'
    cases h'
  | more h' rest =>
    rw [h] at rest
    exact ⟨_,rest⟩

theorem not_of_error {e : ε} (h : (next s).1 = some (.error e)) : ¬ Drains next s out := by
  intro hd
  cases hd with
  | done h' =>
    rw [h] at h'
    cases h'
  | more h' rest =>
    rw [h] at h'
    cases h'

theorem append (pending : List β) (state : List β → σ)
    (hnext : ∀ b rest, next (state (b :: rest)) = (some (.ok b),state rest))
    (h : Drains next (state []) out) : Drains next (state pending) (pending ++ out) := by
  induction pending with
  | nil => exact h
  | cons b rest ih => exact step (hnext b rest) ih

theorem of_append (pending : List β) (state : List β → σ)
    (hnext : ∀ b rest, next (state (b :: rest)) = (some (.ok b),state rest))
    (h : Drains next (state pending) out) : ∃ out', Drains next (state []) out' := by
  induction pending generalizing out with
  | nil => exact ⟨out,h⟩
  | cons b rest ih =>
    obtain ⟨out',h'⟩ := of_step (hnext b rest) h
    exact ih h'

end Drains
end Dodam.Foundation
