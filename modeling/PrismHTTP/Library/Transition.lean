import Mathlib.Logic.Basic

/-! Finite paths of a labelled transition relation, and the induction rules over them.
A path records every state it passes, so a property of all states and a condition on all
steps can be compared along the same run.
-/

namespace Transition

variable {σ α : Type}

/-- The labels of a run from a given state, each with the state it reaches. -/
inductive Path (step : σ → α → σ → Prop) : σ → List (α × σ) → Prop
  | nil (start : σ) : Path step start []
  | cons {start label next rest} (first : step start label next)
    (tail : Path step next rest)
    : Path step start ((label, next) :: rest)

inductive Reachable (initial : σ → Prop) (step : σ → α → σ → Prop) : σ → Prop
  | start {state} (h : initial state) : Reachable initial step state
  | next {state label after} (earlier : Reachable initial step state)
    (h : step state label after)
    : Reachable initial step after

/-- The property holds at the start and at every state the run passes. -/
def EveryState (P : σ → Prop) : σ → List (α × σ) → Prop
  | start, [] => P start
  | start, (_, next) :: rest => P start ∧ EveryState P next rest

/-- The condition holds of every step's source state and label. -/
def EveryStep (Q : σ → α → Prop) : σ → List (α × σ) → Prop
  | _, [] => True
  | start, (label, next) :: rest => Q start label ∧ EveryStep Q next rest

instance {Q : σ → α → Prop} [∀ state label, Decidable (Q state label)] (start : σ)
    (path : List (α × σ))
    : Decidable (EveryStep Q start path) :=
  match path with
  | [] => inferInstanceAs (Decidable True)
  | (label, next) :: rest =>
      have := instDecidableEveryStep (Q := Q) next rest
      inferInstanceAs (Decidable (Q start label ∧ EveryStep Q next rest))

instance {P : σ → Prop} [∀ state, Decidable (P state)] (start : σ) (path : List (α × σ))
    : Decidable (EveryState P start path) :=
  match path with
  | [] => inferInstanceAs (Decidable (P start))
  | (_, next) :: rest =>
      have := instDecidableEveryState (P := P) next rest
      inferInstanceAs (Decidable (P start ∧ EveryState P next rest))

/-- The state a run ends in. -/
def final (start : σ) : List (α × σ) → σ
  | [] => start
  | (_, next) :: rest => final next rest

variable {initial : σ → Prop} {step : σ → α → σ → Prop} {P I : σ → Prop} {Q : σ → α → Prop}

/-- What holds initially and survives every step holds in every reachable state. -/
theorem Reachable.invariant {state : σ} (reached : Reachable initial step state)
    (base : ∀ state, initial state → I state)
    (preserved : ∀ state label after, I state → step state label after → I after)
    : I state := by
  induction reached with
  | start h => exact base _ h
  | next _ h ih => exact preserved _ _ _ ih h

/-- What holds of every state holds of the first, by cases on the path. -/
theorem EveryState.head {start : σ} {path : List (α × σ)} (h : EveryState P start path)
    : P start := by
  cases path with
  | nil => exact h
  | cons _ _ => exact h.1

/-- What holds of every state holds of the last, by induction on the path. -/
theorem EveryState.final {start : σ} {path : List (α × σ)} (h : EveryState P start path)
    : P (final start path) := by
  induction path generalizing start with
  | nil => exact h
  | cons _ _ ih => exact ih h.2

/-- What holds of every state may be weakened, by induction on the path. -/
theorem EveryState.mono {R : σ → Prop} {start : σ} {path : List (α × σ)}
    (h : EveryState P start path) (implied : ∀ state, P state → R state)
    : EveryState R start path := by
  induction path generalizing start with
  | nil => exact implied _ h
  | cons _ _ ih => exact ⟨implied _ h.1, ih h.2⟩

/-- What holds of every state holds wherever a step is taken, by induction on the path. -/
theorem EveryState.everyStep {start : σ} {path : List (α × σ)} (h : EveryState P start path)
    : EveryStep (fun state _ => P state) start path := by
  induction path generalizing start with
  | nil => trivial
  | cons _ _ ih => exact ⟨h.1, ih h.2⟩

/-- An invariant that survives every step meeting the condition holds along any run whose
steps all meet it, by induction on the run.
-/
theorem Path.everyState {start : σ} {path : List (α × σ)} (run : Path step start path)
    (base : I start)
    (preserved : ∀ state label after, I state → Q state label → step state label after
      → I after)
    (steps : EveryStep Q start path)
    : EveryState I start path := by
  induction run with
  | nil => exact base
  | cons first _ ih => exact ⟨base, ih (preserved _ _ _ base steps.1 first) steps.2⟩

/-- If each step from a good state leads to a good state exactly under the condition, a run
from a good state stays good exactly when all its steps meet the condition. The invariant
`I` is what every run keeps anyway.
-/
theorem Path.everyState_iff_everyStep {start : σ} {path : List (α × σ)}
    (run : Path step start path) (baseI : I start) (baseP : P start)
    (kept : ∀ state label after, I state → step state label after → I after)
    (exact_step : ∀ state label after, I state → P state → step state label after
      → (P after ↔ Q state label))
    : EveryState P start path ↔ EveryStep Q start path := by
  -- on the run: `I` holds all along it, so each step can be judged where it starts
  induction run with
  | nil => exact iff_of_true baseP trivial
  | @cons start label next rest first tail ih =>
      have once := exact_step _ _ _ baseI baseP first
      constructor
      · rintro ⟨-, later⟩
        have good := later.head
        exact ⟨once.mp good, (ih (kept _ _ _ baseI first) good).mp later⟩
      · rintro ⟨met, later⟩
        have good := once.mpr met
        exact ⟨baseP, (ih (kept _ _ _ baseI first) good).mpr later⟩

/-- If the invariant `I` implies the property, survives every step under the condition, and
leads to a violation by any other step, a run has the property throughout exactly when all
its steps meet the condition.
-/
theorem Path.everyState_iff_of_spoiled {start : σ} {path : List (α × σ)}
    (run : Path step start path) (base : I start) (good : ∀ state, I state → P state)
    (kept : ∀ state label after, I state → Q state label → step state label after → I after)
    (spoiled : ∀ state label after, I state → ¬ Q state label → step state label after
      → ¬ P after)
    : EveryState P start path ↔ EveryStep Q start path := by
  induction run with
  | nil => exact iff_of_true (good _ base) trivial
  | @cons start label next rest first _ ih =>
      constructor
      · rintro ⟨-, later⟩
        -- a step outside the condition would show in the very next state
        have met : Q start label :=
          Classical.byContradiction fun unmet => spoiled _ _ _ base unmet first later.head
        exact ⟨met, (ih (kept _ _ _ base met first)).mp later⟩
      · rintro ⟨met, later⟩
        exact ⟨good _ base, (ih (kept _ _ _ base met first)).mpr later⟩

/-- A run whose steps all meet a condition is a run of the steps that meet it, by induction on
the run.
-/
theorem Path.restrict {start : σ} {path : List (α × σ)} (run : Path step start path)
    (steps : EveryStep Q start path)
    : Path (fun state label after => step state label after ∧ Q state label) start path := by
  induction run with
  | nil start => exact .nil start
  | cons first _ ih => exact .cons ⟨first, steps.1⟩ (ih steps.2)

/-- A property of states that each step keeps holds at the end of every run. -/
theorem Path.final_of_kept {start : σ} {path : List (α × σ)} (run : Path step start path)
    (base : I start) (kept : ∀ state label after, I state → step state label after → I after)
    : I (final start path) := by
  induction run with
  | nil => exact base
  | cons first _ ih => exact ih (kept _ _ _ base first)

/-- The relation of a step function that may refuse a label. -/
def Fires (next? : σ → α → Option σ) (state : σ) (label : α) (after : σ) : Prop :=
  next? state label = some after

/-- Run the labels in order, recording each state; `none` when one is refused. -/
def trace (next? : σ → α → Option σ) (start : σ) : List α → Option (List (α × σ))
  | [] => some []
  | label :: rest =>
      (next? start label).bind fun after =>
        (trace next? after rest).map ((label, after) :: ·)

/-- A computed trace is a path of its transition function, by induction on the labels. -/
theorem trace_path {next? : σ → α → Option σ} {start : σ} {labels : List α}
    {path : List (α × σ)} (h : trace next? start labels = some path)
    : Path (Fires next?) start path := by
  induction labels generalizing start path with
  | nil =>
      obtain rfl := Option.some.inj h
      exact .nil start
  | cons label rest ih =>
      obtain ⟨after, fired, h⟩ := Option.bind_eq_some_iff.mp h
      obtain ⟨later, traced, rfl⟩ := Option.map_eq_some_iff.mp h
      exact .cons fired (ih traced)

/-- The run of given labels; nothing happens when one of them is refused. -/
def runOf (next? : σ → α → Option σ) (start : σ) (labels : List α) : List (α × σ) :=
  (trace next? start labels).getD []

/-- Running some labels gives a path, an empty one where a label is refused. -/
theorem runOf_path (next? : σ → α → Option σ) (start : σ) (labels : List α)
    : Path (Fires next?) start (runOf next? start labels) := by
  unfold runOf
  cases traced : trace next? start labels with
  | none => exact .nil start
  | some path => exact trace_path traced

/-- A run from a reachable state ends in one, by induction on the run. -/
theorem Path.reachable_final {start : σ} {path : List (α × σ)} (run : Path step start path)
    (reached : Reachable initial step start)
    : Reachable initial step (Transition.final start path) := by
  induction run with
  | nil => exact reached
  | cons first _ ih => exact ih (.next reached first)

/-- So does a run whose steps all meet a condition, by steps that meet it. -/
theorem Path.reachable_meeting {start : σ} {path : List (α × σ)} (run : Path step start path)
    (steps : EveryStep Q start path)
    (reached : Reachable initial (fun state label after => Q state label ∧ step state label after)
      start)
    : Reachable initial (fun state label after => Q state label ∧ step state label after)
        (Transition.final start path) := by
  induction run with
  | nil => exact reached
  | cons first _ ih => exact ih steps.2 (.next reached ⟨steps.1, first⟩)

end Transition
