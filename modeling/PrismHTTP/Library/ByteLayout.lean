import Mathlib.Data.List.Basic

/-! Fixed-width little-endian fields overlaid on a byte string.
A packed C structure read through a pointer is a base offset plus one accessor a field,
so every law here is about one store and one load at explicit offsets.
-/

namespace ByteLayout

abbrev Bytes := List UInt8

/-- One byte; callers check the bound first, so the default is never observed. -/
def get8 (b : Bytes) (i : Nat) : UInt8 := b.getD i 0

def get16 (b : Bytes) (i : Nat) : UInt16 :=
  UInt16.ofNat ((get8 b i).toNat + 256 * (get8 b (i + 1)).toNat)

def get32 (b : Bytes) (i : Nat) : UInt32 :=
  UInt32.ofNat
    ((get8 b i).toNat + 256 * (get8 b (i + 1)).toNat
      + 65536 * (get8 b (i + 2)).toNat + 16777216 * (get8 b (i + 3)).toNat)

/-- Overwrite consecutive bytes from offset `i`; bytes past the end are dropped. -/
def write (b : Bytes) (i : Nat) : Bytes → Bytes
  | [] => b
  | v :: vs => write (b.set i v) (i + 1) vs

def bytes16 (v : UInt16) : Bytes := [v.toUInt8, (v >>> 8).toUInt8]

def bytes32 (v : UInt32) : Bytes :=
  [v.toUInt8, (v >>> 8).toUInt8, (v >>> 16).toUInt8, (v >>> 24).toUInt8]

def set16 (b : Bytes) (i : Nat) (v : UInt16) : Bytes := write b i (bytes16 v)

def set32 (b : Bytes) (i : Nat) (v : UInt32) : Bytes := write b i (bytes32 v)

/-- A fixed run of `n` bytes, such as a hardware address. -/
def getRun (n : Nat) (b : Bytes) (i : Nat) : Vector UInt8 n :=
  Vector.ofFn fun j => get8 b (i + j)

def setRun {n : Nat} (b : Bytes) (i : Nat) (v : Vector UInt8 n) : Bytes :=
  write b i v.toList

/-- A 16-bit field takes two bytes. -/
@[simp, grind =] theorem length_bytes16 (v : UInt16) : (bytes16 v).length = 2 := rfl

/-- A 32-bit field takes four bytes. -/
@[simp, grind =] theorem length_bytes32 (v : UInt32) : (bytes32 v).length = 4 := rfl

/-- Writing changes no length, by induction on what is written. -/
@[simp] theorem length_write (b : Bytes) (i : Nat) (vs : Bytes)
    : (write b i vs).length = b.length := by
  induction vs generalizing b i with
  | nil => rfl
  | cons v vs ih => simp [write, ih]

/-- Setting a 16-bit field changes no length. -/
@[simp] theorem length_set16 (b : Bytes) (i : Nat) (v : UInt16)
    : (set16 b i v).length = b.length :=
  length_write b i _

/-- Setting a 32-bit field changes no length. -/
@[simp] theorem length_set32 (b : Bytes) (i : Nat) (v : UInt32)
    : (set32 b i v).length = b.length :=
  length_write b i _

/-- Setting a run of bytes changes no length. -/
@[simp] theorem length_setRun {n : Nat} (b : Bytes) (i : Nat) (v : Vector UInt8 n)
    : (setRun b i v).length = b.length :=
  length_write b i _

/-- A byte that was set is read back. -/
theorem get8_set_self {b : Bytes} {i : Nat} (v : UInt8) (h : i < b.length)
    : get8 (b.set i v) i = v := by
  simp [get8, List.getD_eq_getElem?_getD, h]

/-- Setting a byte leaves the others. -/
theorem get8_set_ne {b : Bytes} {i j : Nat} (v : UInt8) (h : i ≠ j)
    : get8 (b.set i v) j = get8 b j := by
  simp [get8, List.getD_eq_getElem?_getD, h]

/-- Bytes outside the written range keep their value, by induction on the run. -/
theorem get8_write_outside {b : Bytes} {i j : Nat} {vs : Bytes}
    (h : j < i ∨ i + vs.length ≤ j)
    : get8 (write b i vs) j = get8 b j := by
  induction vs generalizing b i with
  | nil => rfl
  | cons v vs ih =>
      simp only [List.length_cons] at h
      rw [write, ih (by omega), get8_set_ne v (by omega)]

/-- Bytes inside the written range are the written ones, by induction on the run. -/
theorem get8_write_inside {b : Bytes} {i k : Nat} {vs : Bytes}
    (fits : i + vs.length ≤ b.length) (h : k < vs.length)
    : get8 (write b i vs) (i + k) = get8 vs k := by
  induction vs generalizing b i k with
  | nil => simp at h
  | cons v vs ih =>
      simp only [List.length_cons] at fits h
      rw [write]
      cases k with
      -- the first byte is written first, and the later ones are behind it
      | zero =>
          rw [get8_write_outside (by omega), Nat.add_zero, get8_set_self v (by omega)]
          rfl
      | succ k =>
          have tail := ih (b := b.set i v) (i := i + 1) (k := k)
            (by simpa using by omega) (by omega)
          rw [show i + (k + 1) = i + 1 + k by omega, tail]
          rfl

/-- A byte set outside what is written can be set afterwards, by induction on what is written.
-/
theorem write_set {i j : Nat} (b : Bytes) (v : UInt8) {ws : Bytes}
    (outside : i < j ∨ j + ws.length ≤ i)
    : write (b.set i v) j ws = (write b j ws).set i v := by
  induction ws generalizing b j with
  | nil => rfl
  | cons w ws ih =>
      simp only [List.length_cons] at outside
      rw [write, write, List.set_comm _ _ (by omega), ih _ (by omega)]

/-- Stores to disjoint ranges commute. -/
theorem write_comm {i j : Nat} (b : Bytes) {vs ws : Bytes}
    (disjoint : i + vs.length ≤ j ∨ j + ws.length ≤ i)
    : write (write b i vs) j ws = write (write b j ws) i vs := by
  induction vs generalizing b i with
  | nil => rfl
  | cons v vs ih =>
      simp only [List.length_cons] at disjoint
      rw [write, write, ih _ (by omega), write_set _ _ (by omega)]

/-- A 16-bit field is read from its two bytes only. -/
theorem get16_congr {b c : Bytes} {i j : Nat} (h0 : get8 b i = get8 c j)
    (h1 : get8 b (i + 1) = get8 c (j + 1))
    : get16 b i = get16 c j := by
  simp only [get16, h0, h1]

/-- A 32-bit field is read from its four bytes only. -/
theorem get32_congr {b c : Bytes} {i j : Nat} (h0 : get8 b i = get8 c j)
    (h1 : get8 b (i + 1) = get8 c (j + 1)) (h2 : get8 b (i + 2) = get8 c (j + 2))
    (h3 : get8 b (i + 3) = get8 c (j + 3))
    : get32 b i = get32 c j := by
  simp only [get32, h0, h1, h2, h3]

/-- Writing elsewhere leaves a 16-bit field. -/
theorem get16_write_outside {b : Bytes} {i j : Nat} {vs : Bytes}
    (h : j + 2 ≤ i ∨ i + vs.length ≤ j)
    : get16 (write b i vs) j = get16 b j :=
  get16_congr (get8_write_outside (by omega)) (get8_write_outside (by omega))

/-- Writing elsewhere leaves a 32-bit field. -/
theorem get32_write_outside {b : Bytes} {i j : Nat} {vs : Bytes}
    (h : j + 4 ≤ i ∨ i + vs.length ≤ j)
    : get32 (write b i vs) j = get32 b j :=
  get32_congr (get8_write_outside (by omega)) (get8_write_outside (by omega))
    (get8_write_outside (by omega)) (get8_write_outside (by omega))

/-- Writing elsewhere leaves a run of bytes. -/
theorem getRun_write_outside {n : Nat} {b : Bytes} {i j : Nat} {vs : Bytes}
    (h : j + n ≤ i ∨ i + vs.length ≤ j)
    : getRun n (write b i vs) j = getRun n b j := by
  simp only [getRun]
  congr 1
  funext k
  exact get8_write_outside (by omega)

/-- The bytes of a 16-bit field are read as the field, as numbers. -/
@[simp] theorem get16_bytes16 (v : UInt16) (rest : Bytes)
    : get16 (bytes16 v ++ rest) 0 = v := by
  have h := v.toNat_lt
  simp only [get16, bytes16, get8, List.cons_append, List.getD_cons_zero, Nat.zero_add,
    List.getD_cons_succ, UInt16.toNat_toUInt8, UInt16.toNat_shiftRight]
  apply UInt16.toNat_inj.mp
  simp only [UInt16.toNat_ofNat', Nat.shiftRight_eq_div_pow]
  simp
  omega

/-- The bytes of a 32-bit field are read as the field, as numbers. -/
@[simp] theorem get32_bytes32 (v : UInt32) (rest : Bytes)
    : get32 (bytes32 v ++ rest) 0 = v := by
  have h := v.toNat_lt
  simp only [get32, bytes32, get8, List.cons_append, List.getD_cons_zero, Nat.zero_add,
    List.getD_cons_succ, UInt32.toNat_toUInt8, UInt32.toNat_shiftRight]
  apply UInt32.toNat_inj.mp
  simp only [UInt32.toNat_ofNat', Nat.shiftRight_eq_div_pow]
  simp
  omega

/-- A 16-bit field that was set is read back. -/
theorem get16_set16_self {b : Bytes} {i : Nat} (v : UInt16) (h : i + 2 ≤ b.length)
    : get16 (set16 b i v) i = v := by
  have inside {k : Nat} (hk : k < 2) : get8 (set16 b i v) (i + k) = get8 (bytes16 v) k :=
    get8_write_inside (by simpa using h) (by simpa using hk)
  calc
    get16 (set16 b i v) i = get16 (bytes16 v) 0 :=
      get16_congr (inside (k := 0) (by omega)) (inside (k := 1) (by omega))
    _ = v := by simpa using get16_bytes16 v []

/-- A 32-bit field that was set is read back. -/
theorem get32_set32_self {b : Bytes} {i : Nat} (v : UInt32) (h : i + 4 ≤ b.length)
    : get32 (set32 b i v) i = v := by
  have inside {k : Nat} (hk : k < 4) : get8 (set32 b i v) (i + k) = get8 (bytes32 v) k :=
    get8_write_inside (by simpa using h) (by simpa using hk)
  calc
    get32 (set32 b i v) i = get32 (bytes32 v) 0 :=
      get32_congr (inside (k := 0) (by omega)) (inside (k := 1) (by omega))
        (inside (k := 2) (by omega)) (inside (k := 3) (by omega))
    _ = v := by simpa using get32_bytes32 v []

/-- A run of bytes that was set is read back. -/
theorem getRun_setRun_self {n : Nat} {b : Bytes} {i : Nat} (v : Vector UInt8 n)
    (h : i + n ≤ b.length)
    : getRun n (setRun b i v) i = v := by
  apply Vector.ext
  intro k hk
  simp only [getRun, setRun, Vector.getElem_ofFn]
  rw [get8_write_inside (by simpa using h) (by simpa using hk)]
  simp [get8, List.getD_eq_getElem?_getD, hk]

/-- Dropping a prefix shifts the bytes. -/
theorem get8_drop (b : Bytes) (n i : Nat) : get8 (b.drop n) i = get8 b (n + i) := by
  simp [get8, List.getD_eq_getElem?_getD, List.getElem?_drop]

/-- A byte of the first part is read as if there were nothing behind it. -/
theorem get8_append_left {b : Bytes} (c : Bytes) {i : Nat} (h : i < b.length)
    : get8 (b ++ c) i = get8 b i := by
  simp [get8, List.getD_eq_getElem?_getD, List.getElem?_append_left h]

/-- A byte of the second part is read as if it stood alone. -/
theorem get8_append {pre : Bytes} (b : Bytes) {i : Nat} (h : pre.length ≤ i)
    : get8 (pre ++ b) i = get8 b (i - pre.length) := by
  simp [get8, List.getD_eq_getElem?_getD, List.getElem?_append_right h]

/-- A 16-bit field of the second part is read as if it stood alone. -/
theorem get16_append {pre : Bytes} (b : Bytes) {i : Nat} (h : pre.length ≤ i)
    : get16 (pre ++ b) i = get16 b (i - pre.length) :=
  get16_congr (get8_append b h)
    ((get8_append b (by omega)).trans (congrArg _ (by omega)))

/-- A 32-bit field of the second part is read as if it stood alone. -/
theorem get32_append {pre : Bytes} (b : Bytes) {i : Nat} (h : pre.length ≤ i)
    : get32 (pre ++ b) i = get32 b (i - pre.length) :=
  get32_congr (get8_append b h)
    ((get8_append b (by omega)).trans (congrArg _ (by omega)))
    ((get8_append b (by omega)).trans (congrArg _ (by omega)))
    ((get8_append b (by omega)).trans (congrArg _ (by omega)))

/-- A run of the second part is read as if it stood alone. -/
theorem getRun_append {n : Nat} {pre : Bytes} (b : Bytes) {i : Nat} (h : pre.length ≤ i)
    : getRun n (pre ++ b) i = getRun n b (i - pre.length) := by
  simp only [getRun]
  congr 1
  funext k
  exact (get8_append b (by omega)).trans (congrArg _ (by omega))

/-- A byte at the front is read as itself. -/
@[simp] theorem get8_singleton (v : UInt8) (rest : Bytes) : get8 ([v] ++ rest) 0 = v := rfl

/-- A run at the front is read as itself. -/
@[simp] theorem getRun_toList {n : Nat} (v : Vector UInt8 n) (rest : Bytes)
    : getRun n (v.toList ++ rest) 0 = v := by
  apply Vector.ext
  intro k hk
  simp only [getRun, Vector.getElem_ofFn, Nat.zero_add]
  rw [get8_append_left _ (by simpa using hk)]
  simp [get8, List.getD_eq_getElem?_getD, hk]

/-- A 16-bit field is the sum of its bytes, the first one the lowest. -/
theorem toNat_get16 (b : Bytes) (i : Nat)
    : (get16 b i).toNat = (get8 b i).toNat + 256 * (get8 b (i + 1)).toNat := by
  have h0 := (get8 b i).toNat_lt
  have h1 := (get8 b (i + 1)).toNat_lt
  simp only [get16, UInt16.toNat_ofNat']
  omega

/-- A 32-bit field is the sum of its bytes, the first one the lowest. -/
theorem toNat_get32 (b : Bytes) (i : Nat)
    : (get32 b i).toNat
      = (get8 b i).toNat + 256 * (get8 b (i + 1)).toNat
        + 65536 * (get8 b (i + 2)).toNat + 16777216 * (get8 b (i + 3)).toNat := by
  have h0 := (get8 b i).toNat_lt
  have h1 := (get8 b (i + 1)).toNat_lt
  have h2 := (get8 b (i + 2)).toNat_lt
  have h3 := (get8 b (i + 3)).toNat_lt
  simp only [get32, UInt32.toNat_ofNat']
  omega

/-- The `len` bytes from `start`, or as many as there are. -/
def slice (b : Bytes) (start len : Nat) : Bytes := (b.drop start).take len

/-- A slice is as long as asked for, or as long as there are bytes. -/
theorem length_slice (b : Bytes) (start len : Nat)
    : (slice b start len).length = min len (b.length - start) := by
  simp [slice]

/-- A byte of a slice is that of the whole at its place. -/
theorem get8_slice {b : Bytes} {start len i : Nat} (h : i < len)
    : get8 (slice b start len) i = get8 b (start + i) := by
  rw [← get8_drop]
  simp [slice, get8, List.getD_eq_getElem?_getD, h]

/-- A 16-bit field of a slice is that of the whole at its place. -/
theorem get16_slice {b : Bytes} {start len i : Nat} (h : i + 2 ≤ len)
    : get16 (slice b start len) i = get16 b (start + i) :=
  get16_congr (get8_slice (by omega)) (get8_slice (by omega))

/-- A 32-bit field of a slice is that of the whole at its place. -/
theorem get32_slice {b : Bytes} {start len i : Nat} (h : i + 4 ≤ len)
    : get32 (slice b start len) i = get32 b (start + i) :=
  get32_congr (get8_slice (by omega)) (get8_slice (by omega)) (get8_slice (by omega))
    (get8_slice (by omega))

/-- A store from the slice's start on is the same store at the shifted offset, by induction
on the stored bytes.
-/
theorem slice_write {b : Bytes} {start i : Nat} (len : Nat) (vs : Bytes) (h : start ≤ i)
    : slice (write b i vs) start len = write (slice b start len) (i - start) vs := by
  induction vs generalizing b i with
  | nil => rfl
  | cons v vs ih =>
      have stored : slice (b.set i v) start len = (slice b start len).set (i - start) v := by
        rw [slice, List.drop_set, if_neg (by omega), List.take_set, slice]
      rw [write, ih (by omega), write, stored, show i - start + 1 = i + 1 - start by omega]

/-- A store that misses the slice leaves it alone. -/
theorem slice_write_outside {b : Bytes} {start len i : Nat} {vs : Bytes}
    (h : i + vs.length ≤ start ∨ start + len ≤ i)
    : slice (write b i vs) start len = slice b start len := by
  induction vs generalizing b i with
  | nil => rfl
  | cons v vs ih =>
      simp only [List.length_cons] at h
      rw [write, ih (by omega), slice, List.drop_set]
      split
      · rfl
      · rw [List.take_set, List.set_eq_of_length_le (by simp; omega), slice]

end ByteLayout
