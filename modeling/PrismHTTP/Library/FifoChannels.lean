import Mathlib.Data.List.Basic

/-! First-in-first-out channels on one wire.
Everything under way is one list, oldest first, each item with the channel it is on; what the
channels hold, one by one, is all that senders and receivers see of it.
-/

namespace FifoChannels

variable {κ α : Type} [DecidableEq κ]

/-- What is under way on a channel, oldest first. -/
def channel (wire : List (κ × α)) (key : κ) : List α :=
  (wire.filter fun item => item.1 = key).map Prod.snd

/-- The oldest item of a channel. -/
def oldest? (wire : List (κ × α)) (key : κ) : Option α :=
  (wire.find? fun item => item.1 = key).map Prod.snd

/-- The wire after the oldest item of a channel was taken. -/
def pop (wire : List (κ × α)) (key : κ) : List (κ × α) :=
  wire.eraseP fun item => item.1 = key

/-- Nothing is on its way when there are no messages. -/
@[simp] theorem channel_nil (key : κ) : channel ([] : List (κ × α)) key = [] := rfl

/-- An item is on its own channel only, by cases on whose it is. -/
theorem channel_cons (item : κ × α) (wire : List (κ × α)) (key : κ)
    : channel (item :: wire) key
      = if item.1 = key then item.2 :: channel wire key else channel wire key := by
  unfold channel
  by_cases own : item.1 = key <;> simp [own]

/-- Two wires in a row hold one channel behind the other. -/
theorem channel_append (wire more : List (κ × α)) (key : κ)
    : channel (wire ++ more) key = channel wire key ++ channel more key := by
  simp [channel]

/-- A sent item comes behind everything on its channel, and nothing on another. -/
theorem channel_send (wire : List (κ × α)) (sent key : κ) (a : α)
    : channel (wire ++ [(sent, a)]) key
      = if sent = key then channel wire key ++ [a] else channel wire key := by
  rw [channel_append, channel_cons]
  split <;> simp

/-- Taking the oldest item leaves the rest of its channel, by induction on the wire. -/
theorem channel_pop_self {wire : List (κ × α)} {key : κ} {a : α}
    (oldest : oldest? wire key = some a)
    : channel wire key = a :: channel (pop wire key) key := by
  induction wire with
  | nil => cases oldest
  | cons item wire ih =>
      -- the first item of the key is the one taken; those of other keys stay in place
      by_cases own : item.1 = key
      · have first : item.2 = a := by simpa [oldest?, own] using oldest
        rw [channel_cons, if_pos own, first, pop, List.eraseP_cons_of_pos (by simpa using own)]
      · have later : oldest? wire key = some a := by simpa [oldest?, own] using oldest
        have popped : pop (item :: wire) key = item :: pop wire key :=
          List.eraseP_cons_of_neg (by simpa using own)
        rw [popped, channel_cons, channel_cons, if_neg own, if_neg own, ih later]

/-- Taking from one channel leaves the others alone, by induction on the wire. -/
theorem channel_pop_ne {wire : List (κ × α)} {key other : κ} (differ : other ≠ key)
    : channel (pop wire key) other = channel wire other := by
  induction wire with
  | nil => rfl
  | cons item wire ih =>
      by_cases own : item.1 = key
      · have foreign : item.1 ≠ other := fun same => differ (same.symm.trans own)
        rw [pop, List.eraseP_cons_of_pos (by simpa using own), channel_cons, if_neg foreign]
      · have popped : pop (item :: wire) key = item :: pop wire key :=
          List.eraseP_cons_of_neg (by simpa using own)
        rw [popped, channel_cons, channel_cons, ih]

/-- Where all chosen items are on one channel, its oldest item is the first of them if it is one
of them, by induction on the wire.
-/
theorem filter_pop {wire : List (κ × α)} {key : κ} {a : α} {chosen : κ × α → Bool}
    (own : ∀ item ∈ wire, chosen item = true → item.1 = key)
    (oldest : oldest? wire key = some a) (met : chosen (key, a) = true)
    : wire.filter chosen = (key, a) :: (pop wire key).filter chosen := by
  induction wire with
  | nil => cases oldest
  | cons item wire ih =>
      by_cases first : item.1 = key
      · have same : item = (key, a) := by
          have second : item.2 = a := by simpa [oldest?, first] using oldest
          rw [← first, ← second]
        subst same
        rw [pop, List.eraseP_cons_of_pos (by simp), List.filter_cons_of_pos met]
      -- an item of another key is not among the chosen ones, nor is it taken
      · have later : oldest? wire key = some a := by simpa [oldest?, first] using oldest
        have popped : pop (item :: wire) key = item :: pop wire key :=
          List.eraseP_cons_of_neg (by simpa using first)
        have out : ¬ chosen item = true := fun in_ =>
          first (own item (List.mem_cons_self ..) in_)
        rw [popped, List.filter_cons_of_neg out, List.filter_cons_of_neg out]
        exact ih (fun item member => own item (List.mem_cons_of_mem _ member)) later

/-- Taking an item that is not chosen keeps the chosen ones, by induction on the wire. -/
theorem filter_pop_of_not {wire : List (κ × α)} {key : κ} {a : α} {chosen : κ × α → Bool}
    (oldest : oldest? wire key = some a) (unmet : ¬ chosen (key, a) = true)
    : (pop wire key).filter chosen = wire.filter chosen := by
  induction wire with
  | nil => cases oldest
  | cons item wire ih =>
      -- the item taken is the first of its key, and it is not among the chosen ones
      by_cases first : item.1 = key
      · have same : item = (key, a) := by
          have second : item.2 = a := by simpa [oldest?, first] using oldest
          rw [← first, ← second]
        subst same
        rw [pop, List.eraseP_cons_of_pos (by simp), List.filter_cons_of_neg unmet]
      · have later : oldest? wire key = some a := by simpa [oldest?, first] using oldest
        have popped : pop (item :: wire) key = item :: pop wire key :=
          List.eraseP_cons_of_neg (by simpa using first)
        rw [popped, List.filter_cons, List.filter_cons, ih later]

/-- What was taken had been under way. -/
theorem mem_of_oldest? {wire : List (κ × α)} {key : κ} {a : α}
    (oldest : oldest? wire key = some a)
    : (key, a) ∈ wire := by
  obtain ⟨item, found, rfl⟩ := Option.map_eq_some_iff.mp oldest
  have own : item.1 = key := by simpa using List.find?_some found
  rw [← own]
  exact List.mem_of_find?_eq_some found

/-- What is left had been under way. -/
theorem mem_of_mem_pop {wire : List (κ × α)} {key : κ} {item : κ × α}
    (member : item ∈ pop wire key)
    : item ∈ wire :=
  List.eraseP_sublist.subset member

end FifoChannels
