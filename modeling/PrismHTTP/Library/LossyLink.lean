import Mathlib.Data.List.Basic

/-! A link that may lose, duplicate and reorder what it carries.
The link is the list of messages in flight; reordering is the receiver's free choice of
the message it takes next.
-/

namespace LossyLink

variable {α : Type}

/-- What the link does on its own to the message at an index. -/
inductive Noise where
  | lose (i : Nat)
  | duplicate (i : Nat)
  deriving DecidableEq

/-- `none` when there is no such message. -/
def Noise.apply (flight : List α) : Noise → Option (List α)
  | .lose i => if i < flight.length then some (flight.eraseIdx i) else none
  | .duplicate i => flight[i]?.map fun message => message :: flight

/-- Take the message at an index out of the link. -/
def take? (flight : List α) (i : Nat) : Option (α × List α) :=
  flight[i]?.map fun message => (message, flight.eraseIdx i)

/-- Noise invents no message. -/
theorem Noise.subset {noise : Noise} {flight after : List α}
    (h : noise.apply flight = some after)
    : after ⊆ flight := by
  cases noise with
  | lose i =>
      simp only [apply, Option.ite_none_right_eq_some, Option.some.injEq] at h
      obtain ⟨-, rfl⟩ := h
      exact List.eraseIdx_subset
  | duplicate i =>
      obtain ⟨message, found, rfl⟩ := Option.map_eq_some_iff.mp h
      exact List.cons_subset.mpr ⟨List.mem_of_getElem? found, List.Subset.refl flight⟩

/-- What is taken was on its way, and nothing comes to what is left. -/
theorem take?_mem {flight rest : List α} {i : Nat} {message : α}
    (h : take? flight i = some (message, rest))
    : message ∈ flight ∧ rest ⊆ flight := by
  obtain ⟨taken, found, same⟩ := Option.map_eq_some_iff.mp h
  obtain ⟨rfl, rfl⟩ := Prod.mk.inj same
  exact ⟨List.mem_of_getElem? found, List.eraseIdx_subset⟩

/-- Nothing can be taken when nothing is on its way. -/
@[simp] theorem take?_nil (i : Nat) : take? ([] : List α) i = none := rfl

/-- A single message leaves an empty link. -/
@[simp] theorem take?_singleton {message : α} {i : Nat} {taken : α × List α}
    : take? [message] i = some taken ↔ i = 0 ∧ taken = (message, []) := by
  cases i with
  | zero => simp [take?, eq_comm]
  | succ i => simp [take?]

end LossyLink
