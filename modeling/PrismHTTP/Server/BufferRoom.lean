import PrismHTTP.Server.Membuf

/-! Making room in a buffer before a copy.
The importer and the GET handlers pass `membuf_grow` what is missing, but it counts from what
is used. So the new block has that many bytes behind `cur` and no more, and the free bytes
there were are lost.
-/

namespace PrismHTTP.Server
open MemoryBlock

namespace Membuf

/-- `if (membuf_avail(m) < n) membuf_grow(m, n - membuf_avail(m))`, for sizes whose sum with
the bytes used does not wrap.
-/
def roomFor (buf : Membuf) (n : Nat) (block : Block) : Membuf :=
  if buf.avail < n then buf.grow (n - buf.avail) block else buf

/-- The same with `membuf_grow`'s `size_t` sum; `none` where it wraps, which leaves less than
the bytes used in the block.
-/
def growIfNeeded (buf : Membuf) (n : UInt64) (block : Block) : Option Membuf :=
  if UInt64.ofNat buf.avail < n then
    let growSize := n - .ofNat buf.avail
    let newSize := UInt64.ofNat buf.cur + growSize
    if newSize < .ofNat buf.cur then none else some (buf.grow growSize.toNat block)
  else
    some buf

/-- The buffer has room for `n` more bytes, and what it held is where it was. -/
structure HasRoom (buf : Membuf) (n : Nat) (after : Membuf) : Prop where
  avail : n ≤ after.avail
  capacity : buf.size ≤ after.size
  used : after.filled = buf.filled
  cur : after.cur = buf.cur
  prev : after.prev = buf.prev
  inside : after.cur + n ≤ after.size
  consumed : (after.consume n).isSome

/-- After growing there is as much room as was asked for. -/
@[simp] theorem avail_grow (buf : Membuf) (n : Nat) (block : Block)
    : (buf.grow n block).avail = n :=
  Nat.add_sub_cancel_left ..

/-- What was in the buffer stays, however much is asked for. -/
theorem filled_roomFor (buf : Membuf) (n : Nat) (block : Block)
    : (buf.roomFor n block).filled = buf.filled := by
  unfold roomFor
  split
  · exact filled_grow buf _ block
  · rfl

/-- There is room afterwards when there was before, or when nothing was free to be lost. -/
theorem le_avail_roomFor_iff (buf : Membuf) (n : Nat) (block : Block)
    : n ≤ (buf.roomFor n block).avail ↔ n ≤ buf.avail ∨ buf.avail = 0 := by
  unfold roomFor
  split
  · next short =>
    rw [avail_grow]
    omega
  · next enough => exact iff_of_true (Nat.le_of_not_lt enough) (.inl (Nat.le_of_not_lt enough))

/-- Where there is room the rest follows. -/
theorem hasRoom_of_avail {buf : Membuf} {n : Nat} {block : Block}
    (room : n ≤ (buf.roomFor n block).avail)
    : buf.HasRoom n (buf.roomFor n block) where
  avail := room
  capacity := by
    have extent := buf.cur_le_size
    rcases (le_avail_roomFor_iff buf n block).mp room with enough | none_free
    · have kept : buf.roomFor n block = buf := if_neg (Nat.not_lt_of_le enough)
      exact Nat.le_of_eq (congrArg Membuf.size kept).symm
    · unfold roomFor
      split
      · simp only [avail] at none_free
        change buf.size ≤ buf.cur + (n - buf.avail)
        omega
      · exact Nat.le_refl _
  used := filled_roomFor buf n block
  cur := by
    unfold roomFor
    split <;> rfl
  prev := by
    unfold roomFor
    split <;> rfl
  inside := by
    have extent := (buf.roomFor n block).cur_le_size
    simp only [avail] at room
    omega
  consumed := by simp [consume, room]

/-- The `size_t` computation wraps, or does what the natural numbers say. -/
theorem growIfNeeded_eq {buf : Membuf} (small : buf.size < 2 ^ 64) (n : UInt64) (block : Block)
    : buf.growIfNeeded n block
      = if buf.avail < n.toNat ∧ 2 ^ 64 ≤ buf.cur + (n.toNat - buf.avail) then none
        else some (buf.roomFor n.toNat block) := by
  have extent := buf.cur_le_size
  have bound := n.toNat_lt
  have avail : (UInt64.ofNat buf.avail).toNat = buf.avail := by
    rw [UInt64.toNat_ofNat', Membuf.avail]
    omega
  have cur : (UInt64.ofNat buf.cur).toNat = buf.cur := by
    rw [UInt64.toNat_ofNat']
    omega
  simp only [growIfNeeded, UInt64.lt_iff_toNat_lt, avail, roomFor]
  by_cases short : buf.avail < n.toNat
  · have missing : (n - UInt64.ofNat buf.avail).toNat = n.toNat - buf.avail := by
      rw [UInt64.toNat_sub_of_le _ _ (UInt64.le_iff_toNat_le.mpr (by omega)), avail]
    simp only [short, if_true, true_and, UInt64.toNat_add, cur, missing]
    by_cases wraps : 2 ^ 64 ≤ buf.cur + (n.toNat - buf.avail)
    · rw [if_pos wraps, if_pos (by omega)]
    · rw [if_neg wraps, if_neg (by omega)]
  · simp [short]

/-- Room is made exactly when there already was enough, or when the buffer was full and the
new size does not wrap.
-/
theorem growIfNeeded_hasRoom_iff {buf : Membuf} (small : buf.size < 2 ^ 64) (n : UInt64)
    (block : Block)
    : (∃ after, buf.growIfNeeded n block = some after ∧ buf.HasRoom n.toNat after)
      ↔ n.toNat ≤ buf.avail ∨ (buf.avail = 0 ∧ buf.used + n.toNat < 2 ^ 64) := by
  have made := le_avail_roomFor_iff buf n.toNat block
  rw [growIfNeeded_eq small]
  by_cases wraps : buf.avail < n.toNat ∧ 2 ^ 64 ≤ buf.cur + (n.toNat - buf.avail)
  · rw [if_pos wraps]
    refine iff_of_false ?_ ?_
    · rintro ⟨after, nothing, -⟩
      contradiction
    · simp only [used]
      omega
  · rw [if_neg wraps]
    constructor
    · rintro ⟨after, done, room⟩
      obtain rfl := Option.some.inj done
      have free := made.mp room.avail
      simp only [used]
      omega
    · intro free
      exact ⟨_, rfl, hasRoom_of_avail (made.mpr (by omega))⟩

/-- A buffer of ten bytes, the given number of them used. -/
def sampleBuffer (used : Nat) (fits : used ≤ 10) : Membuf where
  base := 4096
  mem := fun _ => 7
  size := 10
  prev := 0
  cur := used
  prev_le_cur := Nat.zero_le _
  cur_le_size := fits

/-- A full buffer gets room for three more bytes. -/
theorem growIfNeeded_hasRoom_full
    : ∃ after,
        (sampleBuffer 10 (by decide)).growIfNeeded 3 ⟨8192, fun _ => 0⟩ = some after
        ∧ (sampleBuffer 10 (by decide)).HasRoom 3 after :=
  (@growIfNeeded_hasRoom_iff (sampleBuffer 10 (by decide)) (by decide) 3 ⟨8192, fun _ => 0⟩).mpr
    (.inr ⟨rfl, by decide⟩)

/-- An empty one that is asked for twelve bytes shrinks to two. -/
theorem growIfNeeded_shrinks
    : ((sampleBuffer 0 (by decide)).growIfNeeded 12 ⟨8192, fun _ => 0⟩).map (·.size) = some 2
      ∧ ¬ ∃ after,
          (sampleBuffer 0 (by decide)).growIfNeeded 12 ⟨8192, fun _ => 0⟩ = some after
          ∧ (sampleBuffer 0 (by decide)).HasRoom 12 after := by
  refine ⟨by decide, ?_⟩
  rintro ⟨after, done, room⟩
  obtain rfl := Option.some.inj done
  exact absurd room.avail (by decide)

end Membuf

end PrismHTTP.Server
