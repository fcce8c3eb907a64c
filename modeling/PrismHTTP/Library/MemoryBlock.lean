import Mathlib.Data.List.Basic

/-! Memory as a function of the offset, loaded and stored a run at a time.
The block's extent is kept by whoever owns it, so the laws here say only which offsets a
store changes and what a load of several runs returns.
-/

namespace MemoryBlock

variable {β : Type}

/-- The `n` cells from offset `i`. -/
def load (m : Nat → β) (i n : Nat) : List β := (List.range' i n).map m

/-- The memory after the given cells are put at offset `i`. -/
def store (m : Nat → β) (i : Nat) (cells : List β) : Nat → β :=
  fun j => if i ≤ j then (cells[j - i]?).getD (m j) else m j

/-- A load gives as many cells as asked for. -/
@[simp] theorem length_load (m : Nat → β) (i n : Nat) : (load m i n).length = n := by
  simp [load]

/-- A load of no cells is empty. -/
@[simp] theorem load_zero (m : Nat → β) (i : Nat) : load m i 0 = [] := rfl

/-- Adjacent runs load as one. -/
theorem load_add (m : Nat → β) (i n k : Nat)
    : load m i (n + k) = load m i n ++ load m (i + n) k := by
  rw [load, load, load, ← List.map_append, List.range'_append_1]

/-- A load depends on the cells of its run only. -/
theorem load_congr {m c : Nat → β} {i n : Nat} (same : ∀ j, i ≤ j → j < i + n → m j = c j)
    : load m i n = load c i n := by
  apply List.map_congr_left
  intro j hj
  obtain ⟨hi, hn⟩ := List.mem_range'_1.mp hj
  exact same j hi hn

/-- The start of a load is a shorter load. -/
theorem take_load (m : Nat → β) {i n k : Nat} (h : k ≤ n)
    : (load m i n).take k = load m i k := by
  obtain ⟨d, rfl⟩ := Nat.exists_eq_add_of_le h
  rw [load_add]
  exact List.take_left' (length_load m i k)

/-- The rest of a load is a load from further on. -/
theorem drop_load (m : Nat → β) {i n k : Nat} (h : k ≤ n)
    : (load m i n).drop k = load m (i + k) (n - k) := by
  obtain ⟨d, rfl⟩ := Nat.exists_eq_add_of_le h
  rw [load_add, Nat.add_sub_cancel_left]
  exact List.drop_left' (length_load m i k)

/-- A run that starts with known cells loads the rest from behind them. -/
theorem load_eq_append {m : Nat → β} {i n : Nat} {front rest : List β}
    (h : load m i n = front ++ rest)
    : load m i front.length = front
      ∧ load m (i + front.length) (n - front.length) = rest := by
  have long : front.length ≤ n := by
    have lengths := congrArg List.length h
    simp only [length_load, List.length_append] at lengths
    omega
  exact ⟨by rw [← take_load m long, h, List.take_left],
    by rw [← drop_load m long, h, List.drop_left]⟩

/-- What was stored is loaded back. -/
theorem load_store_self (m : Nat → β) (i : Nat) (cells : List β)
    : load (store m i cells) i cells.length = cells := by
  apply List.ext_getElem
  · simp
  · intro k hk hc
    simp [load, store, hc]

/-- A load that ends before the store is not changed by it. -/
theorem load_store_before (m : Nat → β) {i n j : Nat} (cells : List β) (h : i + n ≤ j)
    : load (store m j cells) i n = load m i n :=
  load_congr fun k _ hk => if_neg (by omega)

/-- Storing right behind a run appends to it. -/
theorem load_store_append (m : Nat → β) (i n : Nat) (cells : List β)
    : load (store m (i + n) cells) i (n + cells.length) = load m i n ++ cells := by
  rw [load_add, load_store_before m cells (Nat.le_refl _), load_store_self]

end MemoryBlock
