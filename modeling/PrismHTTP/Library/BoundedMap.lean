import Mathlib.Data.Finmap

/-! Finite maps with a fixed capacity.
An update fails only for a new key in a full map and a deletion only for a missing key;
both are described by what every key looks up afterwards.
-/

structure BoundedMap (κ ν : Type) [DecidableEq κ] (capacity : Nat) where
  entries : Finmap fun _ : κ => ν
  bounded : entries.keys.card ≤ capacity

namespace BoundedMap

variable {κ ν : Type} [DecidableEq κ] {capacity : Nat}

def empty : BoundedMap κ ν capacity := ⟨∅, by simp⟩

def lookup (m : BoundedMap κ ν capacity) (key : κ) : Option ν := m.entries.lookup key

/-- No new key fits. -/
def Full (m : BoundedMap κ ν capacity) : Prop := capacity ≤ m.entries.keys.card

instance (m : BoundedMap κ ν capacity) : Decidable m.Full :=
  inferInstanceAs (Decidable (capacity ≤ m.entries.keys.card))

/-- Inserting an entry adds its key to the set of keys. -/
theorem insert_keys (m : Finmap fun _ : κ => ν) (key : κ) (value : ν)
    : (m.insert key value).keys = Insert.insert key m.keys := by
  ext other
  simp [Finmap.mem_keys, Finmap.mem_insert]

/-- Storing under a present key keeps the key set; a new key needs a free slot. -/
theorem insert_bounded {m : BoundedMap κ ν capacity} {key : κ} (value : ν)
    (fits : (m.lookup key).isSome ∨ ¬ m.Full)
    : (m.entries.insert key value).keys.card ≤ capacity := by
  rw [insert_keys]
  rcases fits with present | room
  · have member : key ∈ m.entries.keys :=
      Finmap.mem_keys.mpr (Finmap.lookup_isSome.mp present)
    rw [Finset.insert_eq_of_mem member]
    exact m.bounded
  · have bound := Finset.card_insert_le key m.entries.keys
    simp only [Full] at room
    omega

/-- A map stays within its capacity when an entry is taken out. -/
theorem erase_bounded (m : BoundedMap κ ν capacity) (key : κ)
    : (m.entries.erase key).keys.card ≤ capacity := by
  rw [Finmap.keys_erase]
  exact (Finset.card_erase_le).trans m.bounded

/-- Insert or overwrite; `none` when a new key meets a full map. -/
def update (m : BoundedMap κ ν capacity) (key : κ) (value : ν)
    : Option (BoundedMap κ ν capacity) :=
  if fits : (m.lookup key).isSome ∨ ¬ m.Full then
    some ⟨m.entries.insert key value, insert_bounded value fits⟩
  else
    none

/-- Remove an entry; `none` when there is none. -/
def delete (m : BoundedMap κ ν capacity) (key : κ)
    : Option (BoundedMap κ ν capacity) :=
  if (m.lookup key).isSome then
    some ⟨m.entries.erase key, erase_bounded m key⟩
  else
    none

/-- Maps with the same lookups are the same. -/
@[ext] theorem ext {m n : BoundedMap κ ν capacity}
    (h : ∀ key, m.lookup key = n.lookup key)
    : m = n := by
  obtain ⟨mEntries, mBound⟩ := m
  obtain ⟨nEntries, nBound⟩ := n
  have same : mEntries = nEntries := Finmap.ext_lookup h
  subst same
  rfl

instance [DecidableEq ν] : DecidableEq (BoundedMap κ ν capacity) := fun m n =>
  decidable_of_iff (m.entries = n.entries)
    ⟨fun h => ext fun key => congrArg (Finmap.lookup key) h, fun h => h ▸ rfl⟩

/-- The empty map holds no entry. -/
@[simp] theorem lookup_empty (key : κ)
    : (empty : BoundedMap κ ν capacity).lookup key = none :=
  Finmap.lookup_empty key

/-- The empty map has room, unless its capacity is zero. -/
@[simp] theorem not_full_empty (positive : 0 < capacity)
    : ¬ (empty : BoundedMap κ ν capacity).Full := by
  simpa [Full, empty] using Nat.pos_iff_ne_zero.mp positive

/-- An update is refused only for a new key in a full map. -/
theorem update_isSome {m : BoundedMap κ ν capacity} {key : κ} {value : ν}
    : (m.update key value).isSome ↔ (m.lookup key).isSome ∨ ¬ m.Full := by
  unfold update
  split <;> simp_all

/-- A deletion is refused only for an absent key. -/
theorem delete_isSome {m : BoundedMap κ ν capacity} {key : κ}
    : (m.delete key).isSome ↔ (m.lookup key).isSome := by
  unfold delete
  split <;> simp_all

/-- A successful update changes exactly its own key. -/
theorem lookup_update {m n : BoundedMap κ ν capacity} {key : κ} {value : ν}
    (updated : m.update key value = some n) (other : κ)
    : n.lookup other = if other = key then some value else m.lookup other := by
  unfold update at updated
  split at updated
  · obtain rfl := Option.some.inj updated
    split
    · subst other
      exact Finmap.lookup_insert m.entries
    · exact Finmap.lookup_insert_of_ne m.entries (by assumption)
  · contradiction

/-- A successful deletion changes exactly its own key. -/
theorem lookup_delete {m n : BoundedMap κ ν capacity} {key : κ}
    (deleted : m.delete key = some n) (other : κ)
    : n.lookup other = if other = key then none else m.lookup other := by
  unfold delete at deleted
  split at deleted
  · obtain rfl := Option.some.inj deleted
    split
    · subst other
      exact Finmap.lookup_erase key m.entries
    · exact Finmap.lookup_erase_ne (by assumption)
  · contradiction

/-- A full map takes no new key. -/
theorem update_full {m : BoundedMap κ ν capacity} {key : κ}
    (absent : m.lookup key = none) (full : m.Full) (value : ν)
    : m.update key value = none := by
  simp [update, absent, full]

/-- An absent key cannot be deleted. -/
theorem delete_absent {m : BoundedMap κ ν capacity} {key : κ}
    (absent : m.lookup key = none)
    : m.delete key = none := by
  simp [delete, absent]

end BoundedMap
