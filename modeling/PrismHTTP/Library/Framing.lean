import Mathlib.Data.List.Basic

/-! Frames on a byte stream, by length alone.
A receiver that has taken some number of bytes holds the frames that fit in them, and the
beginning of the next one. Both are computed from the number, so that what a receiver holds
does not depend on how the bytes were cut into reads.
-/

namespace Framing

variable {ι β : Type} (size : ι → Nat)

/-- The frames whose last byte is among the first `n`. -/
def complete : List ι → Nat → List ι
  | [], _ => []
  | x :: rest, n => if size x ≤ n then x :: complete rest (n - size x) else []

/-- The frames that are still to be completed. -/
def pending : List ι → Nat → List ι
  | [], _ => []
  | x :: rest, n => if size x ≤ n then pending rest (n - size x) else x :: rest

/-- The number of bytes behind the last complete frame. -/
def residue : List ι → Nat → Nat
  | [], n => n
  | x :: rest, n => if size x ≤ n then residue rest (n - size x) else n

variable {size}

/-- Every frame is either complete or pending, in their order; by induction on the frames. -/
theorem complete_append_pending (frames : List ι) (n : Nat)
    : complete size frames n ++ pending size frames n = frames := by
  induction frames generalizing n with
  | nil => rfl
  | cons x rest ih =>
      simp only [complete, pending]
      split
      · rw [List.cons_append, ih]
      · rfl

/-- The residue is part of what was received, by induction on the frames. -/
theorem residue_le (frames : List ι) (n : Nat) : residue size frames n ≤ n := by
  induction frames generalizing n with
  | nil => exact Nat.le_refl n
  | cons x rest ih =>
      simp only [residue]
      split
      · exact Nat.le_trans (ih _) (Nat.sub_le _ _)
      · exact Nat.le_refl n

/-- The residue is short of the next frame. -/
theorem residue_lt {frames rest : List ι} {n : Nat} {next : ι}
    (h : pending size frames n = next :: rest)
    : residue size frames n < size next := by
  -- on the frames; the residue is what is left of `n` at the first one that does not fit
  induction frames generalizing n with
  | nil => simp [pending] at h
  | cons x tail ih =>
      simp only [pending, residue] at h ⊢
      split at h
      · next fits => rw [if_pos fits]; exact ih h
      · next short =>
        obtain ⟨rfl, -⟩ := List.cons.inj h
        rw [if_neg short]
        omega

/-- The complete frames account for all bytes but the residue. -/
theorem length_complete (encode : ι → List β) (encode_length : ∀ x, (encode x).length = size x)
    (frames : List ι) (n : Nat)
    : ((complete size frames n).flatMap encode).length + residue size frames n = n := by
  induction frames generalizing n with
  | nil => simp [complete, residue]
  | cons x rest ih =>
      simp only [complete, residue]
      split
      · have later := ih (n - size x)
        rw [List.flatMap_cons, List.length_append, encode_length]
        omega
      · simp

/-- Bytes taken later complete the frames they would complete behind the residue, by
induction on the frames.
-/
theorem complete_add (frames : List ι) (n k : Nat)
    : complete size frames (n + k)
      = complete size frames n
        ++ complete size (pending size frames n) (residue size frames n + k) := by
  induction frames generalizing n with
  | nil => rfl
  | cons x rest ih =>
      by_cases fits : size x ≤ n
      · have whole : size x ≤ n + k := by omega
        simp only [complete, pending, residue, if_pos fits, if_pos whole, List.cons_append]
        rw [← ih, Nat.sub_add_comm fits]
      · simp only [complete, pending, residue, if_neg fits, List.nil_append]

/-- Bytes received later complete frames among the pending ones, by induction on the frames. -/
theorem pending_add (frames : List ι) (n k : Nat)
    : pending size frames (n + k)
      = pending size (pending size frames n) (residue size frames n + k) := by
  induction frames generalizing n with
  | nil => rfl
  | cons x rest ih =>
      by_cases fits : size x ≤ n
      · have whole : size x ≤ n + k := by omega
        simp only [pending, residue, if_pos fits, if_pos whole]
        rw [← ih, Nat.sub_add_comm fits]
      · simp only [pending, residue, if_neg fits]

/-- Bytes received later follow the residue of the earlier ones, by induction on the frames. -/
theorem residue_add (frames : List ι) (n k : Nat)
    : residue size frames (n + k)
      = residue size (pending size frames n) (residue size frames n + k) := by
  induction frames generalizing n with
  | nil => rfl
  | cons x rest ih =>
      by_cases fits : size x ≤ n
      · have whole : size x ≤ n + k := by omega
        simp only [pending, residue, if_pos fits, if_pos whole]
        rw [← ih, Nat.sub_add_comm fits]
      · simp only [pending, residue, if_neg fits]

/-- The whole stream completes every frame. -/
theorem complete_all (encode : ι → List β) (encode_length : ∀ x, (encode x).length = size x)
    (frames : List ι)
    : complete size frames (frames.flatMap encode).length = frames := by
  induction frames with
  | nil => rfl
  | cons x rest ih =>
      have whole : (encode x ++ rest.flatMap encode).length
          = size x + (rest.flatMap encode).length := by
        rw [List.length_append, encode_length]
      rw [List.flatMap_cons, whole, complete, if_pos (Nat.le_add_right _ _),
        Nat.add_sub_cancel_left, ih]

end Framing
