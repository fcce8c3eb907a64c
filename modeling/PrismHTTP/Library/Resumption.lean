import Mathlib.Logic.Basic

/-! Parsers that are run again when more of their text has come.
An answer on a part of the text is final unless it is the error that asks for more: a result
stays the same but for what is left of the text, and malformed text stays malformed.
-/

namespace Resumption

variable {ε α β γ δ : Type} {wait fail : ε} {more : α → α} {more' : β → β}

/-- How the answer on the longer text follows from the answer on its part. A result is taken
along by `more`, and nothing is said of a parser that waits for text.
-/
inductive Resumes (wait fail : ε) (more : α → α) : Except ε α → Except ε α → Prop
  | ok (value : α) : Resumes wait fail more (.ok value) (.ok (more value))
  | malformed : Resumes wait fail more (.error fail) (.error fail)
  | waiting (after : Except ε α) : Resumes wait fail more (.error wait) after

/-- The same for a parser with output parameters, which are final where the answer is. -/
inductive ResumesWith (wait fail : ε) (more : α → α) : Except ε α × δ → Except ε α × δ → Prop
  | ok (value : α) (out : δ)
    : ResumesWith wait fail more (.ok value, out) (.ok (more value), out)
  | malformed (out : δ) : ResumesWith wait fail more (.error fail, out) (.error fail, out)
  | waiting (out : δ) (after : Except ε α × δ)
    : ResumesWith wait fail more (.error wait, out) after

namespace Resumes

variable {before after : Except ε α}

/-- One parser behind another. -/
theorem bind (first : Resumes wait fail more before after) {next next' : α → Except ε β}
    (second : ∀ value, before = .ok value → Resumes wait fail more' (next value)
      (next' (more value)))
    : Resumes wait fail more' (before >>= next) (after >>= next') := by
  cases first with
  | ok value => exact second value rfl
  | malformed => exact .malformed
  | waiting after => exact .waiting _

/-- A function of the result that respects what is left of the text keeps the answer final. -/
theorem map (first : Resumes wait fail more before after) {f : α → β}
    (commutes : ∀ value, f (more value) = more' (f value))
    : Resumes wait fail more' (before.map f) (after.map f) := by
  cases first with
  | ok value =>
      have step : (Except.ok (more value) : Except ε α).map f = .ok (more' (f value)) := by
        rw [← commutes]
        rfl
      rw [step]
      exact .ok (f value)
  | malformed => exact .malformed
  | waiting after => exact .waiting _

/-- An error other than the request for more text is final. -/
theorem error_cases (resumes : Resumes wait fail more before after) {e : ε}
    (failed : before = .error e)
    : e = wait ∨ (e = fail ∧ after = .error fail) := by
  cases resumes with
  | ok value => cases failed
  | malformed =>
      cases failed
      exact Or.inr ⟨rfl, rfl⟩
  | waiting after =>
      cases failed
      exact Or.inl rfl

end Resumes

namespace ResumesWith

variable {before after : Except ε α × δ}

/-- The parser's answer without its outputs. -/
theorem resumes (h : ResumesWith wait fail more before after)
    : Resumes wait fail more before.1 after.1 := by
  cases h with
  | ok value out => exact .ok value
  | malformed out => exact .malformed
  | waiting out after => exact .waiting _

/-- Outputs collected from those of a part. -/
theorem outputs {δ' : Type} (h : ResumesWith wait fail more before after) (collect : δ → δ')
    : ResumesWith wait fail more (before.1, collect before.2) (after.1, collect after.2) := by
  cases h with
  | ok value out => exact .ok value (collect out)
  | malformed out => exact .malformed (collect out)
  | waiting out after => exact .waiting (collect out) _

end ResumesWith

end Resumption
