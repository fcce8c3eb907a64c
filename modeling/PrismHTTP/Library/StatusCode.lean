import Mathlib.Logic.Basic

/-! Procedures that return zero or an error code.
A procedure changes a state and returns a code; no result means that the process ended, by a
failed assertion or by undefined behaviour. Procedures are chained as C code does with one
test a call, so the rules here say when a chain returns zero and what it leaves behind.
-/

namespace StatusCode

variable {σ ν : Type}

/-- The code returned and the state left behind, unless the process ends. -/
abbrev Procedure (σ : Type) := σ → Option (Int × σ)

/-- Call the second procedure only when the first returns zero. -/
def andThen (p q : Procedure σ) : Procedure σ := fun s =>
  (p s).bind fun (error, s) => if error = 0 then q s else some (error, s)

def done : Procedure σ := fun s => some (0, s)

/-- Calls in order, up to the first that fails. -/
def chain : List (Procedure σ) → Procedure σ
  | [] => done
  | p :: rest => andThen p (chain rest)

/-- On failure run the clean-up, and return the failure's code. -/
def onError (p : Procedure σ) (cleanUp : σ → Option σ) : Procedure σ := fun s =>
  (p s).bind fun (error, s) =>
    if error = 0 then some (0, s) else (cleanUp s).map fun s => (error, s)

/-- The call must succeed, or the process ends. -/
def asserted (p : Procedure σ) (s : σ) : Option σ :=
  (p s).bind fun (error, s) => if error = 0 then some s else none

/-- An asserted call as one link of a chain. -/
def must (p : Procedure σ) : Procedure σ := fun s => (asserted p s).map fun s => (0, s)

/-- From every good state with the first view the procedure returns zero, in a good state
with the second one.
-/
def Takes (good : σ → Prop) (view : σ → ν) (p : Procedure σ) (before after : ν) : Prop :=
  ∀ s, good s → view s = before → ∃ t, p s = some (0, t) ∧ good t ∧ view t = after

section Rules

variable {good : σ → Prop} {view : σ → ν} {p q : Procedure σ} {before middle after : ν}

/-- Doing nothing returns zero and leaves the view. -/
theorem Takes.done (v : ν) : Takes good view done v v :=
  fun s kept seen => ⟨s, rfl, kept, seen⟩

/-- Two procedures that return zero do so one after the other. -/
theorem Takes.andThen (first : Takes good view p before middle)
    (second : Takes good view q middle after)
    : Takes good view (andThen p q) before after := by
  intro s kept seen
  obtain ⟨t, ran, kept, seen⟩ := first s kept seen
  obtain ⟨u, then_ran, done⟩ := second t kept seen
  refine ⟨u, ?_, done⟩
  simp [StatusCode.andThen, ran, then_ran]

/-- An empty chain returns zero and leaves the view. -/
theorem Takes.nil (v : ν) : Takes good view (chain []) v v := .done v

/-- A chain returns zero when its first procedure and the rest of it do. -/
theorem Takes.chain {rest : List (Procedure σ)} (first : Takes good view p before middle)
    (later : Takes good view (chain rest) middle after)
    : Takes good view (chain (p :: rest)) before after :=
  first.andThen later

/-- A clean-up plays no part when nothing fails. -/
theorem Takes.onError (h : Takes good view p before after) (cleanUp : σ → Option σ)
    : Takes good view (onError p cleanUp) before after := by
  intro s kept seen
  obtain ⟨t, ran, done⟩ := h s kept seen
  refine ⟨t, ?_, done⟩
  simp [StatusCode.onError, ran]

/-- A procedure that returns zero meets its assertion. -/
theorem Takes.must (h : Takes good view p before after)
    : Takes good view (must p) before after := by
  intro s kept seen
  obtain ⟨t, ran, done⟩ := h s kept seen
  refine ⟨t, ?_, done⟩
  simp [StatusCode.must, asserted, ran]

end Rules

/-- From every state with the precondition the procedure ends, unless it is stuck; it leaves the
first postcondition when it returns zero, and the other one when it fails.
-/
def Ends (stuck : Prop) (pre : σ → Prop) (p : Procedure σ) (post failed : σ → Prop) : Prop :=
  ∀ s,
    pre s
    → (p s = none ∧ stuck)
      ∨ ∃ error t, p s = some (error, t) ∧ (error = 0 → post t) ∧ (error ≠ 0 → failed t)

section Ending

variable {stuck : Prop} {pre middle post failed failed' : σ → Prop} {p q : Procedure σ}

/-- Nothing done leaves what was there. -/
theorem Ends.done : Ends stuck pre done pre failed :=
  fun s kept => .inr ⟨0, s, rfl, fun _ => kept, fun some_error => absurd rfl some_error⟩

/-- What a failure leaves may be said in weaker terms. -/
theorem Ends.weaken (h : Ends stuck pre p post failed) (weaker : ∀ s, failed s → failed' s)
    : Ends stuck pre p post failed' := by
  intro s kept
  rcases h s kept with ended | ⟨error, t, ran, success, failure⟩
  · exact .inl ended
  · exact .inr ⟨error, t, ran, success, fun some_error => weaker t (failure some_error)⟩

/-- The second procedure goes on from where the first leaves off, by cases on the first code. -/
theorem Ends.andThen (first : Ends stuck pre p middle failed)
    (second : Ends stuck middle q post failed)
    : Ends stuck pre (andThen p q) post failed := by
  intro s kept
  rcases first s kept with ⟨ended, why⟩ | ⟨error, t, ran, success, failure⟩
  · exact .inl ⟨by simp [StatusCode.andThen, ended], why⟩
  by_cases zero : error = 0
  · have both : StatusCode.andThen p q s = q t := by simp [StatusCode.andThen, ran, zero]
    rw [both]
    exact second t (success zero)
  · refine .inr ⟨error, t, ?_, fun no_error => absurd no_error zero, failure⟩
    simp [StatusCode.andThen, ran, zero]

/-- The empty chain does nothing. -/
theorem Ends.nil : Ends stuck pre (chain []) pre failed := .done

/-- A chain is described by its first call and the rest of it. -/
theorem Ends.chain {rest : List (Procedure σ)} (first : Ends stuck pre p middle failed)
    (later : Ends stuck middle (chain rest) post failed)
    : Ends stuck pre (chain (p :: rest)) post failed :=
  first.andThen later

/-- After a failure the clean-up leaves the postcondition of a failure, or gets stuck. -/
theorem Ends.onError {cleanUp : σ → Option σ} (h : Ends stuck pre p post failed)
    (cleaned : ∀ s, failed s → (cleanUp s = none ∧ stuck) ∨ ∃ t, cleanUp s = some t ∧ failed' t)
    : Ends stuck pre (onError p cleanUp) post failed' := by
  intro s kept
  rcases h s kept with ⟨ended, why⟩ | ⟨error, t, ran, success, failure⟩
  · exact .inl ⟨by simp [StatusCode.onError, ended], why⟩
  by_cases zero : error = 0
  · refine .inr ⟨0, t, ?_, fun _ => success zero, fun some_error => absurd rfl some_error⟩
    simp [StatusCode.onError, ran, zero]
  · rcases cleaned t (failure zero) with ⟨ended, why⟩ | ⟨u, clean, left⟩
    · exact .inl ⟨by simp [StatusCode.onError, ran, zero, ended], why⟩
    · refine .inr ⟨error, u, ?_, fun no_error => absurd no_error zero, fun _ => left⟩
      simp [StatusCode.onError, ran, zero, clean]

/-- An asserted call succeeds, or its failure is what gets the procedure stuck. -/
theorem Ends.asserted (h : Ends stuck pre p post fun _ => stuck) {s : σ} (kept : pre s)
    : (asserted p s = none ∧ stuck) ∨ ∃ t, asserted p s = some t ∧ post t := by
  rcases h s kept with ⟨ended, why⟩ | ⟨error, t, ran, success, failure⟩
  · exact .inl ⟨by simp [StatusCode.asserted, ended], why⟩
  by_cases zero : error = 0
  · exact .inr ⟨t, by simp [StatusCode.asserted, ran, zero], success zero⟩
  · exact .inl ⟨by simp [StatusCode.asserted, ran, zero], failure zero⟩

/-- As a link of a chain, an asserted call does not fail. -/
theorem Ends.must (h : Ends stuck pre p post fun _ => stuck)
    : Ends stuck pre (must p) post failed := by
  intro s kept
  rcases h.asserted kept with ⟨ended, why⟩ | ⟨t, ran, left⟩
  · exact .inl ⟨by simp [StatusCode.must, ended], why⟩
  · refine .inr ⟨0, t, ?_, fun _ => left, fun some_error => absurd rfl some_error⟩
    simp [StatusCode.must, ran]

end Ending

end StatusCode
