import PrismHTTP.Library.Transition
import Mathlib.Logic.Function.Basic

/-! Processes with states of their own over one store.
A process whose steps are matched by a system with a store to itself can be reasoned about
there, whatever the other processes do in between.
-/

namespace Interleaving
open Transition

structure State (κ σ τ : Type) where
  own : κ → σ
  store : τ

variable {κ σ τ α ρ : Type}

/-- What a process sees: its own state and the store. -/
def State.seen (s : State κ σ τ) (k : κ) : σ × τ := (s.own k, s.store)

/-- The labelled process takes a step on its own state and the store. -/
def next? [DecidableEq κ] (process : κ → σ × τ → α → Option (σ × τ)) (s : State κ σ τ)
    (label : κ × α)
    : Option (State κ σ τ) :=
  (process label.1 (s.seen label.1) label.2).map fun (own, store) =>
    ⟨Function.update s.own label.1 own, store⟩

/-- A state some system of the process's own can reach is related to what the process sees. -/
def Viewed (initial : κ → ρ → Prop) (alone : κ → ρ → α → Option ρ)
    (R : κ → σ × τ → ρ → Prop) (k : κ) (seen : σ × τ)
    : Prop :=
  ∃ mirror, Reachable (initial k) (Fires (alone k)) mirror ∧ R k seen mirror

/-- Each process's guarded steps are steps of its own system, and make no difference to what
the others see.
-/
structure Mirrored (process : κ → σ × τ → α → Option (σ × τ))
    (guard : κ → σ × τ → α → Prop) (initial : κ → ρ → Prop) (alone : κ → ρ → α → Option ρ)
    (R : κ → σ × τ → ρ → Prop)
    : Prop where
  step {k : κ} {seen after : σ × τ} {label : α} {mirror : ρ}
    (reached : Reachable (initial k) (Fires (alone k)) mirror) (related : R k seen mirror)
    (met : guard k seen label) (fired : process k seen label = some after)
    : ∃ mirrorAfter, alone k mirror label = some mirrorAfter ∧ R k after mirrorAfter
  others {k j : κ} {own other otherAfter : σ} {store after : τ} {label : α} {mirror : ρ}
    (different : k ≠ j) (related : R k (own, store) mirror)
    (viewed : Viewed initial alone R j (other, store)) (met : guard j (other, store) label)
    (fired : process j (other, store) label = some (otherAfter, after))
    : R k (own, after) mirror

namespace Mirrored

variable [DecidableEq κ] {process : κ → σ × τ → α → Option (σ × τ)}
  {guard : κ → σ × τ → α → Prop} {initial : κ → ρ → Prop} {alone : κ → ρ → α → Option ρ}
  {R : κ → σ × τ → ρ → Prop}

include process guard

/-- A step keeps every process in view: its own by `step`, the others by `others`. -/
theorem next (mirrored : Mirrored process guard initial alone R) {s after : State κ σ τ}
    {label : κ × α} (viewed : ∀ k, Viewed initial alone R k (s.seen k))
    (met : guard label.1 (s.seen label.1) label.2)
    (fired : next? process s label = some after) (k : κ)
    : Viewed initial alone R k (after.seen k) := by
  obtain ⟨⟨own, store⟩, stepped, rfl⟩ := Option.map_eq_some_iff.mp fired
  obtain ⟨mirror, reached, related⟩ := viewed k
  by_cases same : k = label.1
  · subst same
    obtain ⟨mirrorAfter, matched, related⟩ := mirrored.step reached related met stepped
    refine ⟨mirrorAfter, .next reached matched, ?_⟩
    simpa [State.seen] using related
  · refine ⟨mirror, reached, ?_⟩
    have kept := mirrored.others same related (viewed label.1) met stepped
    simpa [State.seen, same] using kept

end Mirrored

end Interleaving
