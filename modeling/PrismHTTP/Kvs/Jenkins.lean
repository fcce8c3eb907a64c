import Mathlib.Tactic.IntervalCases
import PrismHTTP.Library.WordBlocks

/-! The hash that picks a backend, `jenkins_hash` of a little-endian build.
It reads the key by words, half words or bytes as the key's address allows; all three compute
one function of the key's bytes.
-/

namespace PrismHTTP.Kvs
open ByteLayout WordBlocks

/-- Memory by address. -/
abbrev Memory := Nat → UInt8

/-- The three words of the hash's state. -/
@[ext]
structure Abc where
  a : UInt32
  b : UInt32
  c : UInt32
  deriving DecidableEq

def rot (x k : UInt32) : UInt32 := (x <<< k) ||| (x >>> (32 - k))

def mix : Abc → Abc
  | ⟨a, b, c⟩ =>
      let a := a - c
      let a := a ^^^ rot c 4
      let c := c + b
      let b := b - a
      let b := b ^^^ rot a 6
      let a := a + c
      let c := c - b
      let c := c ^^^ rot b 8
      let b := b + a
      let a := a - c
      let a := a ^^^ rot c 16
      let c := c + b
      let b := b - a
      let b := b ^^^ rot a 19
      let a := a + c
      let c := c - b
      let c := c ^^^ rot b 4
      let b := b + a
      ⟨a, b, c⟩

def final : Abc → Abc
  | ⟨a, b, c⟩ =>
      let c := c ^^^ b
      let c := c - rot b 14
      let a := a ^^^ c
      let a := a - rot c 11
      let b := b ^^^ a
      let b := b - rot a 25
      let c := c ^^^ b
      let c := c - rot b 16
      let a := a ^^^ c
      let a := a - rot c 4
      let b := b ^^^ a
      let b := b - rot a 14
      let c := c ^^^ b
      let c := c - rot b 24
      ⟨a, b, c⟩

/-- `k[i]` of a `const uint32_t *k`. -/
def at32 (m : Memory) (k i : Nat) : UInt32 := load32 m (k + 4 * i)

/-- `k[i]` of a `const uint16_t *k`, promoted. -/
def at16 (m : Memory) (k i : Nat) : UInt32 := (load16 m (k + 2 * i)).toUInt32

/-- `k[i]` of a `const uint8_t *k`, promoted. -/
def at8 (m : Memory) (k i : Nat) : UInt32 := (m (k + i)).toUInt32

/-- The loop body of the word branch, up to its `mix`. -/
def block32 (m : Memory) (k : Nat) (s : Abc) : Abc :=
  ⟨s.a + at32 m k 0, s.b + at32 m k 1, s.c + at32 m k 2⟩

def block16 (m : Memory) (k : Nat) (s : Abc) : Abc :=
  ⟨s.a + (at16 m k 0 + at16 m k 1 <<< 16),
    s.b + (at16 m k 2 + at16 m k 3 <<< 16),
    s.c + (at16 m k 4 + at16 m k 5 <<< 16)⟩

def block8 (m : Memory) (k : Nat) (s : Abc) : Abc :=
  ⟨s.a + at8 m k 0 + at8 m k 1 <<< 8 + at8 m k 2 <<< 16 + at8 m k 3 <<< 24,
    s.b + at8 m k 4 + at8 m k 5 <<< 8 + at8 m k 6 <<< 16 + at8 m k 7 <<< 24,
    s.c + at8 m k 8 + at8 m k 9 <<< 8 + at8 m k 10 <<< 16 + at8 m k 11 <<< 24⟩

/-- The word branch's `switch (length)`; `none` is its `return c`. -/
def switch32 (m : Memory) (k length : Nat) (s : Abc) : Option Abc :=
  let k := at32 m k
  match length with
  | 12 => some ⟨s.a + k 0, s.b + k 1, s.c + k 2⟩
  | 11 => some ⟨s.a + k 0, s.b + k 1, s.c + (k 2 &&& 0xffffff)⟩
  | 10 => some ⟨s.a + k 0, s.b + k 1, s.c + (k 2 &&& 0xffff)⟩
  | 9 => some ⟨s.a + k 0, s.b + k 1, s.c + (k 2 &&& 0xff)⟩
  | 8 => some ⟨s.a + k 0, s.b + k 1, s.c⟩
  | 7 => some ⟨s.a + k 0, s.b + (k 1 &&& 0xffffff), s.c⟩
  | 6 => some ⟨s.a + k 0, s.b + (k 1 &&& 0xffff), s.c⟩
  | 5 => some ⟨s.a + k 0, s.b + (k 1 &&& 0xff), s.c⟩
  | 4 => some ⟨s.a + k 0, s.b, s.c⟩
  | 3 => some ⟨s.a + (k 0 &&& 0xffffff), s.b, s.c⟩
  | 2 => some ⟨s.a + (k 0 &&& 0xffff), s.b, s.c⟩
  | 1 => some ⟨s.a + (k 0 &&& 0xff), s.b, s.c⟩
  | 0 => none
  | _ => some s

/-- The half-word branch's `switch`, whose odd cases fall through to the even ones. -/
def switch16 (m : Memory) (k length : Nat) (s : Abc) : Option Abc :=
  let k8 := at8 m k
  let k := at16 m k
  let case2 := fun (s : Abc) => some { s with a := s.a + k 0 }
  let case4 := fun (s : Abc) => some { s with a := s.a + (k 0 + k 1 <<< 16) }
  let case6 := fun (s : Abc) => some ⟨s.a + (k 0 + k 1 <<< 16), s.b + k 2, s.c⟩
  let case8 := fun (s : Abc) =>
    some ⟨s.a + (k 0 + k 1 <<< 16), s.b + (k 2 + k 3 <<< 16), s.c⟩
  let case10 := fun (s : Abc) =>
    some ⟨s.a + (k 0 + k 1 <<< 16), s.b + (k 2 + k 3 <<< 16), s.c + k 4⟩
  match length with
  | 12 =>
      some
        ⟨s.a + (k 0 + k 1 <<< 16), s.b + (k 2 + k 3 <<< 16), s.c + (k 4 + k 5 <<< 16)⟩
  | 11 => case10 { s with c := s.c + k8 10 <<< 16 }
  | 10 => case10 s
  | 9 => case8 { s with c := s.c + k8 8 }
  | 8 => case8 s
  | 7 => case6 { s with b := s.b + k8 6 <<< 16 }
  | 6 => case6 s
  | 5 => case4 { s with b := s.b + k8 4 }
  | 4 => case4 s
  | 3 => case2 { s with a := s.a + k8 2 <<< 16 }
  | 2 => case2 s
  | 1 => some { s with a := s.a + k8 0 }
  | 0 => none
  | _ => some s

/-- The byte branch's `switch`, whose cases fall through down to the first. -/
def switch8 (m : Memory) (k length : Nat) (s : Abc) : Option Abc :=
  let k := at8 m k
  let case1 := fun (s : Abc) => some { s with a := s.a + k 0 }
  let case2 := fun (s : Abc) => case1 { s with a := s.a + k 1 <<< 8 }
  let case3 := fun (s : Abc) => case2 { s with a := s.a + k 2 <<< 16 }
  let case4 := fun (s : Abc) => case3 { s with a := s.a + k 3 <<< 24 }
  let case5 := fun (s : Abc) => case4 { s with b := s.b + k 4 }
  let case6 := fun (s : Abc) => case5 { s with b := s.b + k 5 <<< 8 }
  let case7 := fun (s : Abc) => case6 { s with b := s.b + k 6 <<< 16 }
  let case8 := fun (s : Abc) => case7 { s with b := s.b + k 7 <<< 24 }
  let case9 := fun (s : Abc) => case8 { s with c := s.c + k 8 }
  let case10 := fun (s : Abc) => case9 { s with c := s.c + k 9 <<< 8 }
  let case11 := fun (s : Abc) => case10 { s with c := s.c + k 10 <<< 16 }
  let case12 := fun (s : Abc) => case11 { s with c := s.c + k 11 <<< 24 }
  match length with
  | 12 => case12 s
  | 11 => case11 s
  | 10 => case10 s
  | 9 => case9 s
  | 8 => case8 s
  | 7 => case7 s
  | 6 => case6 s
  | 5 => case5 s
  | 4 => case4 s
  | 3 => case3 s
  | 2 => case2 s
  | 1 => case1 s
  | 0 => none
  | _ => some s

/-- One branch: the loop, the `switch` on what is left, and `final` unless it returned. -/
def branch (block : Nat → Abc → Abc) (switch : Nat → Nat → Abc → Option Abc)
    (key length : Nat) (s : Abc) : UInt32 :=
  let stop := whileBlocks 12 (fun k s => mix (block k s)) key length s
  match switch stop.1 stop.2.1 stop.2.2 with
  | some s => (final s).c
  | none => stop.2.2.c

/-- The state a hash starts with. -/
def startAbc (length : Nat) (initval : UInt32) : Abc :=
  let a := 0xdeadbeef + UInt32.ofNat length + initval
  ⟨a, a, a⟩

def jenkinsHash (m : Memory) (key length : Nat) (initval : UInt32) : UInt32 :=
  let s := startAbc length initval
  if key &&& 0x3 = 0 then branch (block32 m) (switch32 m) key length s
  else if key &&& 0x1 = 0 then branch (block16 m) (switch16 m) key length s
  else branch (block8 m) (switch8 m) key length s

/-- What the sharding proxy puts into the response: a backend by its index. -/
structure ProxyAnswer where
  status : UInt32
  reason : String
  handoffData : UInt32
  deriving DecidableEq

/-- `kvs_proxy_request_handler` on a path in memory; `none` is its failed assertion. -/
def kvsProxyRequestHandler (m : Memory) (path pathLen : Nat) (nbackends : UInt32)
    : Option ProxyAnswer :=
  let hash := jenkinsHash m path pathLen 0
  let hash := hash % nbackends
  if ¬ (hash ≥ 0 ∧ hash ≤ 4) then none else some ⟨600, "Handoff", hash⟩

/-! ## The byte-wise hash -/

/-- Twelve bytes added to the state as three words; missing bytes count as zero. -/
def Abc.addBytes (s : Abc) (block : Bytes) : Abc :=
  ⟨s.a + get32 block 0, s.b + get32 block 4, s.c + get32 block 8⟩

/-- The last block, which is empty for the empty key only. -/
def Abc.finishBytes (s : Abc) (block : Bytes) : UInt32 :=
  if block = [] then s.c else (final (s.addBytes block)).c

/-- The hash as a function of the key's bytes. -/
def jenkinsBytes (key : Bytes) (initval : UInt32) : UInt32 :=
  blockFold 12 (fun s block => mix (s.addBytes block)) Abc.finishBytes
    (startAbc key.length initval) key

/-- What a branch's two readers have to be: the state plus the bytes they read. -/
structure ReadsBytes (m : Memory) (block : Nat → Abc → Abc)
    (switch : Nat → Nat → Abc → Option Abc) : Prop where
  block : ∀ k s, block k s = s.addBytes (MemoryBlock.load m k 12)
  empty : ∀ k s, switch k 0 s = none
  rest
    : ∀ k length s,
        0 < length → length ≤ 12
        → switch k length s = some (s.addBytes (MemoryBlock.load m k length))

/-- A branch that reads bytes computes the byte-wise hash. -/
theorem ReadsBytes.branch {m : Memory} {block : Nat → Abc → Abc}
    {switch : Nat → Nat → Abc → Option Abc} (reads : ReadsBytes m block switch)
    (key length : Nat) (initval : UInt32)
    : branch block switch key length (startAbc length initval)
      = jenkinsBytes (MemoryBlock.load m key length) initval := by
  have afters : ∀ k length s, length ≤ 12 →
      (match switch k length s with
        | some s => (final s).c
        | none => s.c)
      = s.finishBytes (MemoryBlock.load m k length) := by
    intro k length s short
    -- with nothing left the `switch` returns before `final`
    rcases Nat.eq_zero_or_pos length with rfl | more
    · rw [reads.empty]
      rfl
    · have nonempty : MemoryBlock.load m k length ≠ [] := by
        rw [← List.length_pos_iff, MemoryBlock.length_load]
        exact more
      rw [reads.rest k length s more short, Abc.finishBytes, if_neg nonempty]
  rw [jenkinsBytes, MemoryBlock.length_load]
  refine whileBlocks_eq_blockFold ?_ afters key length _
  intro k s
  exact congrArg mix (reads.block k s)

section Branches

variable (m : Memory)

/-- The bytes of a block, zero past its end. -/
def byteAt (k length i : Nat) : UInt32 := if i < length then at8 m k i else 0

/-- A byte of the loaded key is the byte of memory it came from. -/
theorem get8_load (k length i : Nat)
    : (get8 (MemoryBlock.load m k length) i).toUInt32 = byteAt m k length i := by
  unfold byteAt
  split
  · next inside => simp [get8, MemoryBlock.load, inside, at8]
  · next outside => simp [get8, MemoryBlock.load, outside]

/-- A word of a block by its bytes. -/
theorem get32_load (k length i : Nat)
    : get32 (MemoryBlock.load m k length) i
      = byteAt m k length i + byteAt m k length (i + 1) <<< 8
        + byteAt m k length (i + 2) <<< 16 + byteAt m k length (i + 3) <<< 24 := by
  rw [get32_eq_add, get8_load, get8_load, get8_load, get8_load]

/-- A 16-bit word of the key is the sum of its bytes. -/
theorem at16_eq_add (k i : Nat)
    : at16 m k i = at8 m k (2 * i) + at8 m k (2 * i + 1) <<< 8 :=
  load16_eq_add m _

/-- A half word moved to the high half of a word. -/
theorem half_shift (k i j : Nat)
    : (at8 m k i + at8 m k j <<< 8) <<< 16 = at8 m k i <<< 16 + at8 m k j <<< 24 := by
  have low := (m (k + i)).toNat_lt
  have high := (m (k + j)).toNat_lt
  -- a half word has sixteen bits, so nothing is shifted out
  apply UInt32.toNat_inj.mp
  simp [at8, Nat.shiftLeft_eq]
  omega

/-- A 32-bit word of the key is the sum of its bytes. -/
theorem at32_eq_add (k i : Nat)
    : at32 m k i
      = at8 m k (4 * i) + at8 m k (4 * i + 1) <<< 8 + at8 m k (4 * i + 2) <<< 16
        + at8 m k (4 * i + 3) <<< 24 :=
  load32_eq_add m _

/-- The lowest byte of a word is the first one. -/
theorem at32_and_ff (k i : Nat) : at32 m k i &&& 0xff = at8 m k (4 * i) :=
  load32_and_ff m _

/-- The two lowest bytes of a word are the first two. -/
theorem at32_and_ffff (k i : Nat)
    : at32 m k i &&& (0xffff : UInt32) = at8 m k (4 * i) + at8 m k (4 * i + 1) <<< 8 :=
  load32_and_ffff m _

/-- The three lowest bytes of a word are the first three. -/
theorem at32_and_ffffff (k i : Nat)
    : at32 m k i &&& (0xffffff : UInt32)
      = at8 m k (4 * i) + at8 m k (4 * i + 1) <<< 8 + at8 m k (4 * i + 2) <<< 16 :=
  load32_and_ffffff m _

/-- The state after a block, by the block's bytes. -/
theorem Abc.addBytes_load (s : Abc) (k length : Nat)
    : s.addBytes (MemoryBlock.load m k length)
      = ⟨s.a + (byteAt m k length 0 + byteAt m k length 1 <<< 8 + byteAt m k length 2 <<< 16
          + byteAt m k length 3 <<< 24),
        s.b + (byteAt m k length 4 + byteAt m k length 5 <<< 8 + byteAt m k length 6 <<< 16
          + byteAt m k length 7 <<< 24),
        s.c + (byteAt m k length 8 + byteAt m k length 9 <<< 8 + byteAt m k length 10 <<< 16
          + byteAt m k length 11 <<< 24)⟩ := by
  rw [Abc.addBytes, get32_load, get32_load, get32_load]

/-- The variant that reads bytes hashes them, by cases on how many are left. -/
theorem readsBytes8 : ReadsBytes m (block8 m) (switch8 m) := by
  refine ⟨?_, fun _ _ => rfl, ?_⟩
  · intro k s
    simp only [block8, Abc.addBytes_load, byteAt, Nat.reduceLT, if_true]
    apply Abc.ext <;> grind only
  · intro k length s more short
    -- one goal a case of the `switch`
    interval_cases length
    all_goals
      simp only [switch8, Abc.addBytes_load, byteAt, Nat.reduceLT, if_true, if_false,
        UInt32.zero_shiftLeft, UInt32.add_zero]
    all_goals
      apply congrArg some
      apply Abc.ext <;> grind only

/-- The variant that reads 16-bit words hashes their bytes, by cases on how many are left. -/
theorem readsBytes16 : ReadsBytes m (block16 m) (switch16 m) := by
  refine ⟨?_, fun _ _ => rfl, ?_⟩
  · intro k s
    simp only [block16, at16_eq_add, half_shift, Abc.addBytes_load, byteAt, Nat.reduceLT,
      Nat.reduceMul, Nat.reduceAdd, if_true]
    apply Abc.ext <;> grind only
  · intro k length s more short
    interval_cases length
    all_goals
      simp only [switch16, at16_eq_add, half_shift, Abc.addBytes_load, byteAt, Nat.reduceLT,
        Nat.reduceMul, Nat.reduceAdd, if_true, if_false, UInt32.zero_shiftLeft, UInt32.add_zero]
    all_goals
      apply congrArg some
      apply Abc.ext <;> grind only

/-- The variant that reads 32-bit words hashes their bytes, by cases on how many are left. -/
theorem readsBytes32 : ReadsBytes m (block32 m) (switch32 m) := by
  refine ⟨?_, fun _ _ => rfl, ?_⟩
  · intro k s
    simp only [block32, at32_eq_add, Abc.addBytes_load, byteAt, Nat.reduceLT,
      Nat.reduceMul, Nat.reduceAdd, if_true]
  · intro k length s more short
    interval_cases length
    all_goals
      -- a short case reads a whole word and masks the bytes past the key off
      simp only [switch32, at32_and_ff, at32_and_ffff, at32_and_ffffff]
      simp only [at32_eq_add, Abc.addBytes_load, byteAt, Nat.reduceLT, Nat.reduceMul,
        Nat.reduceAdd, if_true, if_false, UInt32.zero_shiftLeft, UInt32.add_zero]

end Branches

/-- The three branches compute one function of the key's bytes, whatever surrounds them. -/
theorem jenkinsHash_eq_bytes (m : Memory) (key length : Nat) (initval : UInt32)
    : jenkinsHash m key length initval = jenkinsBytes (MemoryBlock.load m key length) initval := by
  unfold jenkinsHash
  split
  · exact (readsBytes32 m).branch key length initval
  · split
    · exact (readsBytes16 m).branch key length initval
    · exact (readsBytes8 m).branch key length initval

/-- The published value of the hash for this key. -/
example : jenkinsBytes "Four score and seven years ago".toUTF8.toList 0 = 0x17770551 := by
  decide +kernel

/-- The handler's result by the byte-wise hash of the path, by unfolding its assertion. -/
theorem kvsProxyRequestHandler_eq {m : Memory} {key : Nat} {path : Bytes}
    (here : MemoryBlock.load m key path.length = path) (nbackends : UInt32)
    : kvsProxyRequestHandler m key path.length nbackends
      = if jenkinsBytes path 0 % nbackends ≤ 4 then
          some ⟨600, "Handoff", jenkinsBytes path 0 % nbackends⟩
        else
          none := by
  have hash := jenkinsHash_eq_bytes m key path.length 0
  rw [here] at hash
  rw [kvsProxyRequestHandler, hash]
  by_cases low : jenkinsBytes path 0 % nbackends ≤ 4
  · simp [low]
  · simp [low]

/-- A path hashes to the same value and is answered alike wherever it lies in memory and
whatever lies around it. The backend it is handed to is the hash modulo their number, and it is
handed on just where the assertion on that index holds.
-/
theorem kvsProxy_path_only {m m' : Memory} {key key' : Nat} {path : Bytes}
    (here : MemoryBlock.load m key path.length = path)
    (there : MemoryBlock.load m' key' path.length = path)
    (nbackends : UInt32) (backends : 1 ≤ nbackends)
    : jenkinsHash m key path.length 0 = jenkinsBytes path 0
      ∧ jenkinsHash m' key' path.length 0 = jenkinsBytes path 0
      ∧ kvsProxyRequestHandler m key path.length nbackends
        = kvsProxyRequestHandler m' key' path.length nbackends
      ∧ (∀ answer,
          kvsProxyRequestHandler m key path.length nbackends = some answer
          → answer.handoffData = jenkinsBytes path 0 % nbackends
            ∧ answer.handoffData < nbackends)
      ∧ (jenkinsBytes path 0 % nbackends ≤ 4
          → kvsProxyRequestHandler m key path.length nbackends
            = some ⟨600, "Handoff", jenkinsBytes path 0 % nbackends⟩)
      ∧ (¬ jenkinsBytes path 0 % nbackends ≤ 4
          → kvsProxyRequestHandler m key path.length nbackends = none) := by
  have first := jenkinsHash_eq_bytes m key path.length 0
  have second := jenkinsHash_eq_bytes m' key' path.length 0
  -- both addresses hold the same bytes, and the handler reads nothing else of the memory
  have result := kvsProxyRequestHandler_eq here nbackends
  rw [here] at first
  rw [there] at second
  refine ⟨first, second, ?_, ?_, ?_, ?_⟩
  · rw [result, kvsProxyRequestHandler_eq there nbackends]
  · intro answer answered
    have positive : nbackends ≠ 0 := by
      rintro rfl
      exact absurd backends (by decide)
    rw [result] at answered
    split at answered
    · cases answered
      exact ⟨rfl, UInt32.mod_lt _ (UInt32.pos_iff_ne_zero.mpr positive)⟩
    · cases answered
  · intro low
    rw [result, if_pos low]
  · intro high
    rw [result, if_neg high]

/-- The path `/key`, at an address of each kind. -/
def samplePath : Bytes := [47, 107, 101, 121]

/-- Of three backends, the second is selected at both addresses. -/
theorem kvsProxy_path_only_sample
    : kvsProxyRequestHandler (fun a => samplePath.getD a 0) 0 4 3 = some ⟨600, "Handoff", 1⟩
      ∧ kvsProxyRequestHandler (fun a => samplePath.getD (a - 1) 7) 1 4 3
        = some ⟨600, "Handoff", 1⟩ := by
  obtain ⟨-, -, same, -, served, -⟩ := @kvsProxy_path_only (fun a => samplePath.getD a 0)
    (fun a => samplePath.getD (a - 1) 7) 0 1 samplePath rfl rfl 3 (by decide)
  have slot : jenkinsBytes samplePath 0 % 3 = 1 := by decide +kernel
  rw [slot] at served
  have selected := served (by decide)
  exact ⟨selected, same.symm.trans selected⟩

end PrismHTTP.Kvs
