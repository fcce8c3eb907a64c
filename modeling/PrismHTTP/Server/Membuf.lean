import Mathlib.Algebra.Group.Int.Defs
import Mathlib.Algebra.Group.Nat.Defs
import PrismHTTP.Library.MemoryBlock

/-! The growing receive buffer.
Pointers into the block are offsets from `begin`; the block's own address is kept because
growing may move it. Bytes past `end` are whatever the heap holds, so every reader checks
the extent itself.
-/

namespace PrismHTTP.Server
open MemoryBlock

abbrev Bytes := List UInt8

/-- `struct membuf`, with `begin` as the address `base` and the other pointers as offsets. -/
structure Membuf where
  base : UInt64
  mem : Nat → UInt8
  size : Nat
  prev : Nat
  cur : Nat
  prev_le_cur : prev ≤ cur
  cur_le_size : cur ≤ size

/-- What the allocator answers: an address, and the contents of the bytes it adds. -/
structure Block where
  base : UInt64
  fresh : Nat → UInt8

/-- One read: the allocator's answer if the buffer has to grow, and the bytes that arrive. -/
structure Read where
  block : Block
  data : Bytes

namespace Membuf

def init (block : Block) (initialSize : Nat) : Membuf where
  base := block.base
  mem := block.fresh
  size := initialSize
  prev := 0
  cur := 0
  prev_le_cur := Nat.le_refl 0
  cur_le_size := Nat.zero_le _

/-- `realloc` to `growSize` bytes behind `cur`; it keeps the bytes both blocks have. -/
def grow (buf : Membuf) (growSize : Nat) (block : Block) : Membuf where
  base := block.base
  mem := fun i => if i < min buf.size (buf.cur + growSize) then buf.mem i else block.fresh i
  size := buf.cur + growSize
  prev := buf.prev
  cur := buf.cur
  prev_le_cur := buf.prev_le_cur
  cur_le_size := Nat.le_add_right _ _

def reset (buf : Membuf) : Membuf :=
  { buf with
    prev := 0
    cur := 0
    prev_le_cur := Nat.le_refl 0
    cur_le_size := Nat.zero_le _ }

def avail (buf : Membuf) : Nat := buf.size - buf.cur

def used (buf : Membuf) : Nat := buf.cur

/-- `none` is the error return, which leaves the buffer alone. -/
def consume (buf : Membuf) (size : Nat) : Option Membuf :=
  if fits : size ≤ buf.avail then
    some { buf with
      prev := buf.cur
      cur := buf.cur + size
      prev_le_cur := Nat.le_add_right _ _
      cur_le_size := by have := buf.cur_le_size; unfold avail at fits; omega }
  else
    none

/-- Both read callbacks' buffer request: grow by 4096 when less than 1024 are left. -/
def makeRoom (buf : Membuf) (block : Block) : Membuf :=
  if buf.avail < 1024 then buf.grow 4096 block else buf

/-- The event loop has copied the data it received to `cur`. -/
def receive (buf : Membuf) (data : Bytes) : Membuf :=
  { buf with mem := store buf.mem buf.cur data }

/-- `memmove` of `n` bytes from offset `src` to `begin`. -/
def moveDown (buf : Membuf) (src n : Nat) : Membuf :=
  { buf with mem := store buf.mem 0 (load buf.mem src n) }

/-- The bytes before `cur`. -/
def filled (buf : Membuf) : Bytes := load buf.mem 0 buf.cur

/-- A new buffer is empty. -/
@[simp] theorem filled_init (block : Block) (n : Nat) : (init block n).filled = [] := rfl

/-- `cur` counts the bytes in the buffer. -/
@[simp] theorem length_filled (buf : Membuf) : buf.filled.length = buf.cur := length_load _ _ _

/-- Making room does not change the number of bytes in the buffer. -/
@[simp] theorem makeRoom_cur (buf : Membuf) (block : Block)
    : (buf.makeRoom block).cur = buf.cur := by
  unfold makeRoom
  split <;> rfl

/-- Growing keeps the bytes received so far, wherever the block now is. -/
theorem filled_grow (buf : Membuf) (n : Nat) (block : Block)
    : (buf.grow n block).filled = buf.filled := by
  apply load_congr
  intro i _ before
  have inside : i < buf.cur := by simpa [grow] using before
  have extent := buf.cur_le_size
  exact if_pos (by omega)

/-- Making room keeps the bytes in the buffer. -/
@[simp] theorem filled_makeRoom (buf : Membuf) (block : Block)
    : (buf.makeRoom block).filled = buf.filled := by
  unfold makeRoom
  split
  · exact filled_grow buf 4096 block
  · rfl

/-- Making room does not exceed a bound that has place for 4096 bytes more. -/
theorem size_makeRoom_le {buf : Membuf} {bound : Nat} (block : Block)
    (hs : buf.size ≤ bound) (hc : buf.cur + 4096 ≤ bound)
    : (buf.makeRoom block).size ≤ bound := by
  unfold makeRoom
  split
  · exact hc
  · exact hs

/-- A read that fits is appended to what the buffer holds. -/
theorem consume_receive {buf : Membuf} {data : Bytes} (fits : data.length ≤ buf.avail)
    : ∃ after : Membuf, (buf.receive data).consume data.length = some after
      ∧ after.filled = buf.filled ++ data
      ∧ after.cur = buf.cur + data.length
      ∧ after.prev = buf.cur
      ∧ after.size = buf.size
      ∧ after.base = buf.base := by
  refine ⟨_, dif_pos fits, ?_, rfl, rfl, rfl, rfl⟩
  have appended := load_store_append buf.mem 0 buf.cur data
  simpa [filled, receive] using appended

/-- Moving the tail down, then resetting and consuming its length, leaves exactly the tail. -/
theorem consume_moveDown (buf : Membuf) {src : Nat} (h : src ≤ buf.cur)
    : ∃ after : Membuf,
      (buf.moveDown src (buf.cur - src)).reset.consume (buf.cur - src) = some after
      ∧ after.filled = buf.filled.drop src
      ∧ after.size = buf.size := by
  have extent := buf.cur_le_size
  have fits : buf.cur - src ≤ (buf.moveDown src (buf.cur - src)).reset.avail := by
    change buf.cur - src ≤ buf.size - 0
    omega
  refine ⟨_, dif_pos fits, ?_, rfl⟩
  have kept := load_store_self buf.mem 0 (load buf.mem src (buf.cur - src))
  rw [length_load] at kept
  rw [filled, filled, drop_load _ h, Nat.zero_add src]
  simpa [reset, moveDown] using kept

end Membuf

end PrismHTTP.Server
