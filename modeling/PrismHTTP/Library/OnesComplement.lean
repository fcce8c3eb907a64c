import Mathlib.Data.ZMod.Basic
import Mathlib.Tactic.Ring
import Mathlib.Tactic.LinearCombination
import PrismHTTP.Library.ByteLayout

/-! One's-complement sums of 16-bit words, the checksum of the Internet protocols.
The end-around carry makes a sum congruent to the plain one modulo 65535, and the only two
representatives of zero are told apart by whether any word is nonzero. Incremental updates
are therefore equations in `ZMod 65535`.
-/

namespace OnesComplement
open ByteLayout

/-- Addition of 16-bit words with the carry added back in. -/
def add (a b : Nat) : Nat := if a + b < 65536 then a + b else a + b - 65535

def sum (words : List Nat) : Nat := words.foldl add 0

/-- The words of a byte string in network order, an odd last byte padded with zero. -/
def words : Bytes → List Nat
  | [] => []
  | [a] => [256 * a.toNat]
  | a :: b :: rest => (256 * a.toNat + b.toNat) :: words rest

/-- The sum over data and its checksum field that a receiver accepts. -/
def Verifies (b : Bytes) : Prop := sum (words b) = 0xffff

instance (b : Bytes) : Decidable (Verifies b) :=
  inferInstanceAs (Decidable (sum (words b) = 0xffff))

/-- A sum of words is a word. -/
theorem add_le {a b : Nat} (ha : a ≤ 65535) (hb : b ≤ 65535) : add a b ≤ 65535 := by
  unfold add
  split <;> omega

/-- A sum is zero only for two zeros: `0xffff` never wraps to zero. -/
theorem add_eq_zero_iff {a b : Nat} : add a b = 0 ↔ a = 0 ∧ b = 0 := by
  unfold add
  split <;> omega

/-- Modulo 65535 the end-around carry is the plain sum. -/
theorem cast_add (a b : Nat) : (add a b : ZMod 65535) = a + b := by
  unfold add
  split
  case isTrue => exact Nat.cast_add a b
  case isFalse wraps =>
    have carried : a + b - 65535 + 65535 = a + b := by omega
    have cast := congrArg (Nat.cast : Nat → ZMod 65535) carried
    rw [Nat.cast_add, ZMod.natCast_self 65535, add_zero] at cast
    rw [cast, Nat.cast_add]

/-- The running sum stays a 16-bit word, congruent to the plain sum, and is zero only while
every word so far is; by induction on the words.
-/
theorem foldl_add {ws : List Nat} (small : ∀ w ∈ ws, w ≤ 65535) {acc : Nat}
    (start : acc ≤ 65535)
    : ws.foldl add acc ≤ 65535
      ∧ ((ws.foldl add acc : Nat) : ZMod 65535) = acc + ws.sum
      ∧ (ws.foldl add acc = 0 ↔ acc = 0 ∧ ws.sum = 0) := by
  -- the accumulator never leaves the range in which `add` is a sum modulo 65535
  induction ws generalizing acc with
  | nil => simpa using start
  | cons w ws ih =>
      have bound := small w List.mem_cons_self
      obtain ⟨small', cast, zero⟩ :=
        ih (fun v hv => small v (List.mem_cons_of_mem _ hv)) (add_le start bound)
      refine ⟨small', ?_, ?_⟩
      · rw [List.foldl_cons, cast, cast_add, List.sum_cons]
        push_cast
        ring
      · rw [List.foldl_cons, zero, add_eq_zero_iff, List.sum_cons]
        omega

/-- A sum is all ones exactly when the plain sum is a nonzero multiple of 65535. -/
theorem sum_eq_ones_iff {ws : List Nat} (small : ∀ w ∈ ws, w ≤ 65535)
    : sum ws = 0xffff ↔ ws.sum ≠ 0 ∧ (ws.sum : ZMod 65535) = 0 := by
  obtain ⟨bound, cast, zero⟩ := foldl_add small (Nat.zero_le 65535)
  change sum ws ≤ 65535 at bound
  change sum ws = 0 ↔ 0 = 0 ∧ ws.sum = 0 at zero
  have congruent : (sum ws : ZMod 65535) = ws.sum := by
    rw [sum, cast, Nat.cast_zero, zero_add]
  rw [← congruent, ZMod.natCast_eq_zero_iff]
  constructor
  · intro ones
    exact ⟨fun none => by simp [zero.mpr ⟨rfl, none⟩] at ones, ⟨1, ones⟩⟩
  · rintro ⟨some, multiple, at_⟩
    have nonzero : sum ws ≠ 0 := fun none => some (zero.mp none).2
    have one : multiple = 1 := by omega
    rw [at_, one]

/-- The plain word sum modulo 65535. -/
def total : Bytes → ZMod 65535
  | [] => 0
  | [a] => 256 * (a.toNat : ZMod 65535)
  | a :: b :: rest => 256 * (a.toNat : ZMod 65535) + b.toNat + total rest

/-- A word of a byte string is below `2 ^ 16`, by induction on the words. -/
theorem words_small (b : Bytes) : ∀ w ∈ words b, w ≤ 65535 := by
  induction b using words.induct with
  | case1 => simp [words]
  | case2 a =>
      have bound := a.toNat_lt
      simp only [words, List.mem_singleton, forall_eq]
      omega
  | case3 a b rest ih =>
      have high := a.toNat_lt
      have low := b.toNat_lt
      simp only [words, List.mem_cons, forall_eq_or_imp]
      exact ⟨by omega, ih⟩

/-- The sum of the words is the total modulo 65535, by induction on the words. -/
theorem cast_sum_words (b : Bytes) : ((words b).sum : ZMod 65535) = total b := by
  induction b using words.induct with
  | case1 => simp [words, total]
  | case2 a => simp [words, total]
  | case3 a b rest ih =>
      simp only [words, total, List.sum_cons, Nat.cast_add, Nat.cast_mul, Nat.cast_ofNat, ih]

/-- Some byte of the string is set. -/
def Nonzero (b : Bytes) : Prop := ∃ v ∈ b, v ≠ 0

/-- The words add up to zero only when every byte is zero, by induction on the words. -/
theorem sum_words_ne_zero {b : Bytes} : (words b).sum ≠ 0 ↔ Nonzero b := by
  have set (v : UInt8) : v ≠ 0 ↔ v.toNat ≠ 0 := by
    rw [Ne, Ne, ← UInt8.toNat_inj]
    rfl
  unfold Nonzero
  induction b using words.induct with
  | case1 => simp [words]
  | case2 a =>
      simp only [words, List.sum_singleton, List.mem_singleton, exists_eq_left, set]
      omega
  | case3 a b rest ih =>
      have later : (∃ v ∈ rest, v.toNat ≠ 0) ↔ (words rest).sum ≠ 0 := by
        simpa only [set] using ih.symm
      simp only [words, List.sum_cons, List.mem_cons, exists_eq_or_imp, set, later]
      omega

/-- Verification is divisibility, once the data are known not to be all zero. -/
theorem verifies_iff (b : Bytes) : Verifies b ↔ Nonzero b ∧ total b = 0 := by
  rw [Verifies, sum_eq_ones_iff (words_small b), sum_words_ne_zero, cast_sum_words]

/-- Totals add up where the second string starts at a word, by induction on the words. -/
theorem total_append {a : Bytes} (b : Bytes) (aligned : a.length % 2 = 0)
    : total (a ++ b) = total a + total b := by
  induction a using words.induct with
  | case1 => simp [total]
  | case2 v => simp at aligned
  | case3 v w rest ih =>
      have aligned' : rest.length % 2 = 0 := by
        simpa only [List.length_cons, Nat.add_assoc, Nat.add_mod_right] using aligned
      simp only [List.cons_append, total, ih aligned']
      ring

/-- Overwriting a byte moves the total by its weight, the position's half of the word; by
induction two bytes at a time.
-/
theorem total_set {b : Bytes} {i : Nat} (v : UInt8) (h : i < b.length)
    : total (b.set i v)
      = total b
        + (if i % 2 = 0 then 256 else 1)
          * ((v.toNat : ZMod 65535) - (get8 b i).toNat) := by
  -- two bytes at a time, as the sum takes them: the high byte of a word counts 256 times
  induction b using words.induct generalizing i with
  | case1 => simp at h
  | case2 a =>
      obtain rfl : i = 0 := by simpa using h
      simp only [List.set_cons_zero, total, get8, List.getD_cons_zero, Nat.zero_mod, ↓reduceIte]
      ring
  | case3 a b rest ih =>
      have position : i = 0 ∨ i = 1 ∨ ∃ j, i = j + 2 := by
        rcases Nat.lt_or_ge i 2 with early | late
        · omega
        · exact Or.inr (Or.inr ⟨i - 2, (Nat.sub_add_cancel late).symm⟩)
      rcases position with rfl | rfl | ⟨j, rfl⟩
      · simp only [List.set_cons_zero, total, get8, List.getD_cons_zero, Nat.zero_mod,
          ↓reduceIte]
        ring
      · simp only [List.set_cons_succ, List.set_cons_zero, total, get8, List.getD_cons_succ,
          List.getD_cons_zero, Nat.one_mod, one_ne_zero, ↓reduceIte]
        ring
      · have later := @ih j (by simpa using h)
        simp only [List.set_cons_succ, total, later, Nat.add_mod_right, get8,
          List.getD_cons_succ]
        ring

/-- A field modulo 65535 is made of its bytes. -/
theorem cast_get16 (b : Bytes) (i : Nat)
    : ((get16 b i).toNat : ZMod 65535) = (get8 b i).toNat + 256 * (get8 b (i + 1)).toNat := by
  rw [toNat_get16]
  push_cast
  ring

/-- A carry counts as one. -/
theorem cast_65536 : (65536 : ZMod 65535) = 1 := by decide

/-- A 16-bit field counts 256 times its little-endian value. -/
theorem total_bytes16 (v : UInt16) : total (bytes16 v) = 256 * (v.toNat : ZMod 65535) := by
  have value := cast_get16 (bytes16 v) 0
  rw [← List.append_nil (bytes16 v), get16_bytes16] at value
  simp only [bytes16, total, add_zero]
  simp only [bytes16, get8, List.append_nil, List.getD_cons_zero, List.getD_cons_succ,
    Nat.zero_add] at value
  rw [value]
  linear_combination (-((v >>> 8).toUInt8.toNat : ZMod 65535)) * cast_65536

/-- Setting a 16-bit field changes the total by the difference of the values, its bytes being
swapped in the words.
-/
theorem total_set16 {b : Bytes} {i : Nat} (v : UInt16) (aligned : i % 2 = 0)
    (h : i + 2 ≤ b.length)
    : total (set16 b i v)
      = total b + 256 * ((v.toNat : ZMod 65535) - (get16 b i).toNat) := by
  have odd : (i + 1) % 2 = 1 := by omega
  have field := total_bytes16 v
  simp only [bytes16, total, add_zero] at field
  simp only [set16, bytes16, write]
  rw [total_set _ (by simpa using by omega), total_set _ (by omega),
    get8_set_ne _ (by omega),
    cast_get16]
  simp only [aligned, odd, ↓reduceIte, one_ne_zero]
  linear_combination field + ((get8 b (i + 1)).toNat : ZMod 65535) * cast_65536

/-- A 32-bit field is set in two halves. -/
theorem set32_halves (b : Bytes) (i : Nat) (v : UInt32)
    : set32 b i v = set16 (set16 b i v.toUInt16) (i + 2) (v >>> 16).toUInt16 := by
  have low : v.toUInt16.toUInt8 = v.toUInt8 := by simp
  have second : (v.toUInt16 >>> 8).toUInt8 = (v >>> 8).toUInt8 := by
    apply UInt8.toNat_inj.mp
    simp only [UInt16.toNat_toUInt8, UInt16.toNat_shiftRight, UInt32.toNat_toUInt16,
      UInt32.toNat_toUInt8, UInt32.toNat_shiftRight, Nat.shiftRight_eq_div_pow]
    simp
    omega
  have third : (v >>> 16).toUInt16.toUInt8 = (v >>> 16).toUInt8 := by simp
  have last : ((v >>> 16).toUInt16 >>> 8).toUInt8 = (v >>> 24).toUInt8 := by
    have bound := v.toNat_lt
    apply UInt8.toNat_inj.mp
    simp only [UInt16.toNat_toUInt8, UInt16.toNat_shiftRight, UInt32.toNat_toUInt16,
      UInt32.toNat_toUInt8, UInt32.toNat_shiftRight, Nat.shiftRight_eq_div_pow]
    simp
    omega
  simp only [set32, set16, bytes32, bytes16, write, low, second, third, last]

/-- A 32-bit value is congruent to the sum of its halves. -/
theorem cast_halves (v : UInt32)
    : (v.toNat : ZMod 65535) = v.toUInt16.toNat + (v >>> 16).toUInt16.toNat := by
  have bound := v.toNat_lt
  have split : v.toNat = v.toUInt16.toNat + 65536 * (v >>> 16).toUInt16.toNat := by
    simp only [UInt32.toNat_toUInt16, UInt32.toNat_shiftRight, Nat.shiftRight_eq_div_pow]
    simp
    omega
  rw [split]
  push_cast
  rw [cast_65536]
  ring

/-- A 32-bit field modulo 65535 is the sum of its halves. -/
theorem cast_get32 (b : Bytes) (i : Nat)
    : ((get32 b i).toNat : ZMod 65535) = (get16 b i).toNat + (get16 b (i + 2)).toNat := by
  rw [toNat_get32, cast_get16, cast_get16]
  push_cast
  linear_combination
    ((get8 b (i + 2)).toNat + 256 * (get8 b (i + 3)).toNat : ZMod 65535) * cast_65536

/-- Setting a 32-bit field changes the total by the difference of the values, half by half. -/
theorem total_set32 {b : Bytes} {i : Nat} (v : UInt32) (aligned : i % 2 = 0)
    (h : i + 4 ≤ b.length)
    : total (set32 b i v)
      = total b + 256 * ((v.toNat : ZMod 65535) - (get32 b i).toNat) := by
  rw [set32_halves, total_set16 _ (by omega) (by simpa using h), set16,
    get16_write_outside (by simp), ← set16, total_set16 _ aligned (by omega), cast_halves,
    cast_get32]
  ring

/-- The total of a 32-bit field's bytes is that of its value. -/
theorem total_bytes32 (v : UInt32) : total (bytes32 v) = 256 * (v.toNat : ZMod 65535) := by
  have stored : bytes32 v = set32 [0, 0, 0, 0] 0 v := rfl
  rw [stored, total_set32 v rfl (by decide)]
  simp [total, get32, get8]

end OnesComplement
