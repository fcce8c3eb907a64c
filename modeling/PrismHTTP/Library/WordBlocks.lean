import Mathlib.Algebra.Group.Nat.Defs
import Mathlib.Algebra.GroupWithZero.Nat
import Mathlib.Algebra.NeZero
import PrismHTTP.Library.ByteLayout
import PrismHTTP.Library.MemoryBlock

/-! Memory read in words and in blocks.
A loop that advances a pointer block by block computes a fold over the bytes it passes, so two
loops that read their blocks differently agree as soon as their bodies do.
-/

namespace WordBlocks
open ByteLayout

/-- The little-endian 16-bit word at an address. -/
def load16 (m : Nat → UInt8) (p : Nat) : UInt16 := get16 (MemoryBlock.load m p 2) 0

/-- The little-endian 32-bit word at an address. -/
def load32 (m : Nat → UInt8) (p : Nat) : UInt32 := get32 (MemoryBlock.load m p 4) 0

section Words

/-- A word as the sum of its shifted bytes. -/
theorem get32_eq_add (b : Bytes) (i : Nat)
    : get32 b i
      = (get8 b i).toUInt32 + (get8 b (i + 1)).toUInt32 <<< 8
        + (get8 b (i + 2)).toUInt32 <<< 16 + (get8 b (i + 3)).toUInt32 <<< 24 := by
  have b0 := (get8 b i).toNat_lt
  have b1 := (get8 b (i + 1)).toNat_lt
  have b2 := (get8 b (i + 2)).toNat_lt
  have b3 := (get8 b (i + 3)).toNat_lt
  apply UInt32.toNat_inj.mp
  simp [get32, Nat.shiftLeft_eq]
  omega

variable (m : Nat → UInt8) (p : Nat)

/-- A 16-bit load is the sum of its bytes, as numbers. -/
theorem load16_eq_add : (load16 m p).toUInt32 = (m p).toUInt32 + (m (p + 1)).toUInt32 <<< 8 := by
  have b0 := (m p).toNat_lt
  have b1 := (m (p + 1)).toNat_lt
  apply UInt32.toNat_inj.mp
  simp [load16, get16, get8, MemoryBlock.load, List.range', Nat.shiftLeft_eq]
  omega

/-- A 32-bit load is the sum of its bytes, by `get32_eq_add`. -/
theorem load32_eq_add
    : load32 m p
      = (m p).toUInt32 + (m (p + 1)).toUInt32 <<< 8 + (m (p + 2)).toUInt32 <<< 16
        + (m (p + 3)).toUInt32 <<< 24 :=
  get32_eq_add _ 0

/-- A 32-bit load counts its bytes from the lowest. -/
theorem load32_toNat
    : (load32 m p).toNat
      = (m p).toNat + 256 * (m (p + 1)).toNat + 65536 * (m (p + 2)).toNat
        + 16777216 * (m (p + 3)).toNat := by
  have b0 := (m p).toNat_lt
  have b1 := (m (p + 1)).toNat_lt
  have b2 := (m (p + 2)).toNat_lt
  have b3 := (m (p + 3)).toNat_lt
  rw [load32_eq_add]
  simp [Nat.shiftLeft_eq]
  omega

/-- A mask of low bits keeps the remainder. -/
theorem toNat_and_mask (x : UInt32) {mask : UInt32} {n : Nat} (low : mask.toNat = 2 ^ n - 1)
    : (x &&& mask).toNat = x.toNat % 2 ^ n := by
  rw [UInt32.toNat_and, low, Nat.and_two_pow_sub_one_eq_mod]

/-- The lowest byte of a load is the first one. -/
theorem load32_and_ff : load32 m p &&& 0xff = (m p).toUInt32 := by
  have b0 := (m p).toNat_lt
  apply UInt32.toNat_inj.mp
  rw [@toNat_and_mask _ _ 8 rfl, load32_toNat]
  simp
  omega

/-- The two lowest bytes of a load are the first two. -/
theorem load32_and_ffff
    : load32 m p &&& (0xffff : UInt32) = (m p).toUInt32 + (m (p + 1)).toUInt32 <<< 8 := by
  have b0 := (m p).toNat_lt
  have b1 := (m (p + 1)).toNat_lt
  apply UInt32.toNat_inj.mp
  rw [@toNat_and_mask _ _ 16 rfl, load32_toNat]
  simp [Nat.shiftLeft_eq]
  omega

/-- The three lowest bytes of a load are the first three. -/
theorem load32_and_ffffff
    : load32 m p &&& (0xffffff : UInt32)
      = (m p).toUInt32 + (m (p + 1)).toUInt32 <<< 8 + (m (p + 2)).toUInt32 <<< 16 := by
  have b0 := (m p).toNat_lt
  have b1 := (m (p + 1)).toNat_lt
  have b2 := (m (p + 2)).toNat_lt
  apply UInt32.toNat_inj.mp
  rw [@toNat_and_mask _ _ 24 rfl, load32_toNat]
  simp [Nat.shiftLeft_eq]
  omega

end Words

section Blocks

variable {σ τ β : Type}

/-- The loop that passes whole blocks while more than one block is left: the pointer, the
length and the state it ends with.
-/
def whileBlocks (n : Nat) [NeZero n] (body : Nat → σ → σ) (p length : Nat) (s : σ)
    : Nat × Nat × σ :=
  if n < length then whileBlocks n body (p + n) (length - n) (body p s) else (p, length, s)
termination_by length
decreasing_by
  have := Nat.pos_of_ne_zero (NeZero.ne n)
  omega

/-- The same over the bytes: whole blocks while more than one is left, then the rest. -/
def blockFold (n : Nat) [NeZero n] (block : σ → List β → σ) (rest : σ → List β → τ) (s : σ)
    (bytes : List β) : τ :=
  if n < bytes.length then blockFold n block rest (block s (bytes.take n)) (bytes.drop n)
  else rest s bytes
termination_by bytes.length
decreasing_by
  have := Nat.pos_of_ne_zero (NeZero.ne n)
  simp
  omega

/-- A loop over memory folds the bytes it passes, when its body and what follows it depend on
the bytes only; by induction on the blocks.
-/
theorem whileBlocks_eq_blockFold {n : Nat} [NeZero n] {m : Nat → β} {body : Nat → σ → σ}
    {after : Nat → Nat → σ → τ}
    {block : σ → List β → σ} {rest : σ → List β → τ}
    (bodies : ∀ p s, body p s = block s (MemoryBlock.load m p n))
    (afters : ∀ p length s, length ≤ n →
      after p length s = rest s (MemoryBlock.load m p length))
    (p length : Nat) (s : σ)
    : (let stop := whileBlocks n body p length s; after stop.1 stop.2.1 stop.2.2)
      = blockFold n block rest s (MemoryBlock.load m p length) := by
  -- on the loop: a round reads the block the fold takes off the list
  induction p, length, s using whileBlocks.induct n body with
  | case1 p length s more ih =>
      have here := MemoryBlock.take_load m (i := p) (Nat.le_of_lt more)
      obtain ⟨left, rfl⟩ := Nat.exists_eq_add_of_le (Nat.le_of_lt more)
      have there : (MemoryBlock.load m p (n + left)).drop n = MemoryBlock.load m (p + n) left := by
        rw [MemoryBlock.load_add]
        exact List.drop_left' (MemoryBlock.length_load m p n)
      rw [Nat.add_sub_cancel_left] at ih
      rw [whileBlocks, if_pos more, blockFold,
        if_pos ((MemoryBlock.length_load m p _).symm ▸ more), here, there, ← bodies,
        Nat.add_sub_cancel_left]
      exact ih
  | case2 p length s short =>
      rw [whileBlocks, if_neg short, blockFold,
        if_neg ((MemoryBlock.length_load m p _).symm ▸ short)]
      exact afters p length s (Nat.le_of_not_lt short)

end Blocks

end WordBlocks
