import PrismHTTP.Library.ByteLayout
import Mathlib.Algebra.Group.Nat.Defs
import Mathlib.Data.List.Induction

/-! Numbers as byte strings, most significant byte first.
Every width is an instance of one pair of functions, which are inverse to each other on the
numbers and the strings of that width.
-/

namespace BigEndian
open ByteLayout

/-- The last `n` digits of a number to base 256. -/
def digits : Nat → Nat → Bytes
  | 0, _ => []
  | n + 1, v => digits n (v / 256) ++ [UInt8.ofNat v]

def value (b : Bytes) : Nat := b.foldl (fun v d => 256 * v + d.toNat) 0

/-- A number is written in as many bytes as asked for, by induction on the count. -/
@[simp] theorem length_digits (n v : Nat) : (digits n v).length = n := by
  induction n generalizing v with
  | zero => rfl
  | succ n ih => simp [digits, ih]

/-- Another byte at the end is another digit. -/
theorem value_concat (b : Bytes) (d : UInt8) : value (b ++ [d]) = 256 * value b + d.toNat := by
  simp [value]

/-- Bytes of a given number have a value below the corresponding power of 256, by induction
from the end.
-/
theorem value_lt (b : Bytes) : value b < 256 ^ b.length := by
  induction b using List.reverseRecOn with
  | nil => simp [value]
  | append_singleton b d ih =>
      have small := d.toNat_lt
      rw [value_concat, List.length_append, List.length_singleton, Nat.pow_succ]
      omega

/-- A number that fits is read back from its digits. -/
theorem value_digits {n v : Nat} (fits : v < 256 ^ n) : value (digits n v) = v := by
  induction n generalizing v with
  | zero => simp_all [digits, value]
  | succ n ih =>
      rw [Nat.pow_succ] at fits
      rw [digits, value_concat, ih (Nat.div_lt_of_lt_mul (by omega)), UInt8.toNat_ofNat']
      omega

/-- A byte string is the digits of what it reads. -/
theorem digits_value (b : Bytes) : digits b.length (value b) = b := by
  induction b using List.reverseRecOn with
  | nil => rfl
  | append_singleton b d ih =>
      have small := d.toNat_lt
      have high : (256 * value b + d.toNat) / 256 = value b := by omega
      have low : UInt8.ofNat (256 * value b + d.toNat) = d := by
        apply UInt8.toNat_inj.mp
        rw [UInt8.toNat_ofNat']
        omega
      rw [value_concat, List.length_append, List.length_singleton, digits, high, low, ih]

/-! The widths of network fields. -/

def be16 (v : UInt16) : Bytes := digits 2 v.toNat

def be32 (v : UInt32) : Bytes := digits 4 v.toNat

def be64 (v : UInt64) : Bytes := digits 8 v.toNat

/-- A 16-bit number takes two bytes. -/
@[simp] theorem length_be16 (v : UInt16) : (be16 v).length = 2 := length_digits 2 _

/-- A 32-bit number takes four bytes. -/
@[simp] theorem length_be32 (v : UInt32) : (be32 v).length = 4 := length_digits 4 _

/-- A 64-bit number takes eight bytes. -/
@[simp] theorem length_be64 (v : UInt64) : (be64 v).length = 8 := length_digits 8 _

/-- A 16-bit number is read back from its bytes. -/
@[simp] theorem ofNat_value_be16 (v : UInt16) : UInt16.ofNat (value (be16 v)) = v := by
  rw [be16, value_digits v.toNat_lt, UInt16.ofNat_toNat]

/-- A 32-bit number is read back from its bytes. -/
@[simp] theorem ofNat_value_be32 (v : UInt32) : UInt32.ofNat (value (be32 v)) = v := by
  rw [be32, value_digits v.toNat_lt, UInt32.ofNat_toNat]

/-- A 64-bit number is read back from its bytes. -/
@[simp] theorem ofNat_value_be64 (v : UInt64) : UInt64.ofNat (value (be64 v)) = v := by
  rw [be64, value_digits v.toNat_lt, UInt64.ofNat_toNat]

/-- Two bytes are those of the number they are read as. -/
theorem be16_ofNat_value {b : Bytes} (two : b.length = 2) : be16 (UInt16.ofNat (value b)) = b := by
  have small := value_lt b
  rw [two] at small
  rw [be16, UInt16.toNat_ofNat_of_lt' small, ← two, digits_value]

/-- Four bytes are those of the number they are read as. -/
theorem be32_ofNat_value {b : Bytes} (four : b.length = 4)
    : be32 (UInt32.ofNat (value b)) = b := by
  have small := value_lt b
  rw [four] at small
  rw [be32, UInt32.toNat_ofNat_of_lt' small, ← four, digits_value]

/-- Eight bytes are those of the number they are read as. -/
theorem be64_ofNat_value {b : Bytes} (eight : b.length = 8)
    : be64 (UInt64.ofNat (value b)) = b := by
  have small := value_lt b
  rw [eight] at small
  rw [be64, UInt64.toNat_ofNat_of_lt' small, ← eight, digits_value]

end BigEndian
