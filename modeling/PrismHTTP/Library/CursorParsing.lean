import PrismHTTP.Library.BigEndian

/-! Parsers that move a position over a text, with and without checking for its end.
A parser is described by the pieces it accepts and by the texts on which it reads outside; both
compose along `bind`, so the description of a long parser is put together from those of its
steps.
-/

namespace CursorParsing
open ByteLayout BigEndian

/-- A parser refuses its text, or reads outside it. -/
inductive Failure where
  | refused
  | outside
  deriving DecidableEq

def Parser (α : Type) : Type := Bytes → Nat → Except Failure (α × Nat)

variable {α β : Type}

instance : Monad Parser where
  pure a := fun _ pos => .ok (a, pos)
  bind m k := fun text pos =>
    match m text pos with
    | .ok (a, next) => k a text next
    | .error failure => .error failure

def run (m : Parser α) (text : Bytes) (pos : Nat) : Except Failure α :=
  (m text pos).map Prod.fst

/-- A run gives the value of a parser that accepts, wherever it stops. -/
theorem run_eq_ok {m : Parser α} {text : Bytes} {pos : Nat} {a : α}
    : run m text pos = .ok a ↔ ∃ next, m text pos = .ok (a, next) := by
  unfold run
  cases m text pos with
  | error failure => simp [Except.map]
  | ok result => simp [Except.map, Prod.ext_iff]

/-- A run fails as its parser does, by cases on the parser's result. -/
theorem run_eq_error {m : Parser α} {text : Bytes} {pos : Nat} {failure : Failure}
    : run m text pos = .error failure ↔ m text pos = .error failure := by
  unfold run
  cases m text pos <;> simp [Except.map]

/-- A sequence accepts what its first part accepts and its second part from there on. -/
theorem bind_eq_ok {m : Parser α} {k : α → Parser β} {text : Bytes} {pos next : Nat} {b : β}
    : (m >>= k) text pos = .ok (b, next)
      ↔ ∃ a middle, m text pos = .ok (a, middle) ∧ k a text middle = .ok (b, next) := by
  constructor
  · intro accepts
    cases ran : m text pos with
    | error failure => simp [Bind.bind, ran] at accepts
    | ok result => exact ⟨result.1, result.2, rfl, by simpa [Bind.bind, ran] using accepts⟩
  · rintro ⟨a, middle, ran, then_⟩
    simp [Bind.bind, ran, then_]

/-- A sequence fails in its first part, or in its second part behind an accepted first one. -/
theorem bind_eq_error {m : Parser α} {k : α → Parser β} {text : Bytes} {pos : Nat}
    {failure : Failure}
    : (m >>= k) text pos = .error failure
      ↔ m text pos = .error failure
        ∨ ∃ a middle, m text pos = .ok (a, middle) ∧ k a text middle = .error failure := by
  cases ran : m text pos with
  | error failure => simp [Bind.bind, ran]
  | ok result => simp [Bind.bind, ran, Prod.ext_iff]

/-- Read a byte without a check. -/
def byte : Parser UInt8 := fun text pos =>
  if pos < text.length then .ok (get8 text pos, pos + 1) else .error .outside

def require (p : Prop) [Decidable p] : Parser Unit := fun _ pos =>
  if p then .ok ((), pos) else .error .refused

/-- What may fail for other reasons than the text. -/
def attempt (result : Option α) : Parser α := fun _ pos =>
  match result with
  | some a => .ok (a, pos)
  | none => .error .refused

/-- Refuse unless so many bytes are left; nothing is less than that many. -/
def check (size : Int) : Parser Unit := fun text pos =>
  if size > text.length - pos ∨ text.length < pos then .error .refused else .ok ((), pos)

/-- Copy `n` bytes without a check. -/
def copy (n : Nat) : Parser (Vector UInt8 n) := fun text pos =>
  if pos + n ≤ text.length then .ok (getRun n text pos, pos + n) else .error .outside

def take (n : Nat) : Parser (Vector UInt8 n) := do
  check n
  copy n

/-- Numbers in network order. -/
def word16 : Parser UInt16 := do
  let b ← take 2
  pure (UInt16.ofNat (value b.toList))

def word32 : Parser UInt32 := do
  let b ← take 4
  pure (UInt32.ofNat (value b.toList))

/-- A run between two parts of a text is read back, byte by byte. -/
theorem getRun_between {n : Nat} (front back : Bytes) (v : Vector UInt8 n)
    : getRun n (front ++ (v.toList ++ back)) front.length = v := by
  refine Vector.ext fun i short => ?_
  have inside : i < v.toList.length := by rwa [Vector.length_toList]
  simp only [getRun, Vector.getElem_ofFn, get8, List.getD_eq_getElem?_getD]
  rw [List.getElem?_append_right (Nat.le_add_right _ _), Nat.add_sub_cancel_left,
    List.getElem?_append_left inside, List.getElem?_eq_getElem inside]
  rfl

/-- Where `n` bytes are left, the rest of the text begins with a run of them, by splitting it
there.
-/
theorem exists_run {n : Nat} {front content : Bytes}
    (inside : front.length + n ≤ (front ++ content).length)
    : ∃ (v : Vector UInt8 n) (rest : Bytes), content = v.toList ++ rest := by
  rw [List.length_append] at inside
  refine ⟨⟨(content.take n).toArray, by simp; omega⟩, content.drop n, ?_⟩
  exact (List.take_append_drop n content).symm

/-- Checking before copying turns straying into refusal. -/
theorem take_eq {text : Bytes} {pos : Nat} (n : Nat)
    : take n text pos
      = if pos + n ≤ text.length then .ok (getRun n text pos, pos + n)
        else .error .refused := by
  by_cases inside : pos + n ≤ text.length
  · have enough : ¬ ((n : Int) > text.length - pos ∨ text.length < pos) := by omega
    simp [take, bind, check, copy, inside, enough]
  · have few : (n : Int) > text.length - pos ∨ text.length < pos := by omega
    simp [take, bind, check, inside, few]

/-- On texts shorter than `limit`, the parser accepts just the pieces of `T` with the values
given there, whatever follows them, and reads outside just where what is left is in `F`.
-/
structure Parses (limit : Nat) (m : Parser α) (T : Bytes → α → Prop) (F : Bytes → Prop)
    : Prop where
  accepts {front content : Bytes} {next : Nat} {a : α}
    (short : (front ++ content).length < limit)
    : m (front ++ content) front.length = .ok (a, next)
      ↔ ∃ piece rest, content = piece ++ rest ∧ T piece a ∧ next = (front ++ piece).length
  strays {front content : Bytes} (short : (front ++ content).length < limit)
    : m (front ++ content) front.length = .error .outside ↔ F content

namespace Parses

variable {limit : Nat} {m : Parser α} {k : α → Parser β} {T T' : Bytes → α → Prop}
  {F F' : Bytes → Prop} {U : α → Bytes → β → Prop} {G : α → Bytes → Prop}

/-- A sequence accepts a piece of the first part before one of the second. It strays with the
first part, or behind such a piece with the second. Both by moving the position over the first
piece.
-/
theorem bind (first : Parses limit m T F) (second : ∀ a, Parses limit (k a) (U a) (G a))
    : Parses limit (m >>= k)
        (fun piece b => ∃ a front back, piece = front ++ back ∧ T front a ∧ U a back b)
        (fun content => F content
          ∨ ∃ a piece rest, content = piece ++ rest ∧ T piece a ∧ G a rest) where
  accepts {front content next b} short := by
    rw [bind_eq_ok]
    constructor
    -- the second parser starts behind the first one's piece, which becomes part of its front
    · rintro ⟨a, middle, ran, then_⟩
      obtain ⟨piece, content, rfl, piece_, rfl⟩ := (first.accepts short).mp ran
      rw [← List.append_assoc] at short then_
      obtain ⟨piece', rest, rfl, piece'_, rfl⟩ := ((second a).accepts short).mp then_
      refine ⟨piece ++ piece', rest, ?_, ⟨a, piece, piece', rfl, piece_, piece'_⟩, ?_⟩
      · rw [List.append_assoc]
      · rw [List.append_assoc]
    · rintro ⟨_, rest, rfl, ⟨a, piece, piece', rfl, piece_, piece'_⟩, rfl⟩
      refine ⟨a, (front ++ piece).length, ?_, ?_⟩
      · exact (first.accepts short).mpr
          ⟨piece, piece' ++ rest, List.append_assoc .., piece_, rfl⟩
      · have whole : front ++ (piece ++ piece' ++ rest) = front ++ piece ++ (piece' ++ rest) := by
          simp only [List.append_assoc]
        rw [whole] at short ⊢
        exact ((second a).accepts short).mpr
          ⟨piece', rest, rfl, piece'_, by rw [List.append_assoc]⟩
  strays {front content} short := by
    rw [bind_eq_error, first.strays short]
    refine or_congr Iff.rfl ?_
    constructor
    · rintro ⟨a, middle, ran, outside⟩
      obtain ⟨piece, rest, rfl, piece_, rfl⟩ := (first.accepts short).mp ran
      rw [← List.append_assoc] at short outside
      exact ⟨a, piece, rest, rfl, piece_, ((second a).strays short).mp outside⟩
    · rintro ⟨a, piece, rest, rfl, piece_, outside⟩
      refine ⟨a, (front ++ piece).length, ?_, ?_⟩
      · exact (first.accepts short).mpr ⟨piece, rest, rfl, piece_, rfl⟩
      · rw [← List.append_assoc] at short ⊢
        exact ((second a).strays short).mpr outside

/-- What moves nothing accepts the empty piece, if it accepts. -/
theorem still (met : Prop) (a : α)
    (accepts : ∀ text pos, met → m text pos = .ok (a, pos))
    (refuses : ∀ text pos, ¬ met → m text pos = .error .refused)
    : Parses limit m (fun piece b => piece = [] ∧ met ∧ a = b) (fun _ => False) where
  accepts {front content next b} _ := by
    by_cases met_ : met
    · rw [accepts _ _ met_]
      constructor
      · intro same
        obtain ⟨rfl, rfl⟩ := Prod.mk.inj (Except.ok.inj same)
        exact ⟨[], content, rfl, ⟨rfl, met_, rfl⟩, by rw [List.append_nil]⟩
      · rintro ⟨_, _, -, ⟨rfl, -, rfl⟩, rfl⟩
        rw [List.append_nil]
    · rw [refuses _ _ met_]
      simp [met_]
  strays {front content} _ := by
    by_cases met_ : met
    · simp [accepts _ _ met_]
    · simp [refuses _ _ met_]

/-- A description may be put in other words. -/
theorem congr (parses : Parses limit m T F) (same : ∀ piece a, T piece a ↔ T' piece a)
    (strays : ∀ content, F content ↔ F' content)
    : Parses limit m T' F' := by
  obtain rfl : T = T' := funext₂ fun piece a => propext (same piece a)
  obtain rfl : F = F' := funext fun content => propext (strays content)
  exact parses

/-- A value alone accepts the empty piece. -/
theorem pure (a : α)
    : Parses limit (Pure.pure a) (fun piece b => piece = [] ∧ b = a) (fun _ => False) := by
  have parses : Parses limit (Pure.pure a : Parser α) _ _ :=
    still True a (fun _ _ _ => rfl) fun _ _ unmet => absurd trivial unmet
  exact parses.congr (fun piece b => by simp [eq_comm]) fun _ => Iff.rfl

/-- A requirement accepts the empty piece when it is met. -/
theorem require (p : Prop) [Decidable p]
    : Parses limit (require p) (fun piece _ => piece = [] ∧ p) (fun _ => False) := by
  have parses : Parses limit (CursorParsing.require p) _ _ :=
    still p () (fun _ _ met => if_pos met) fun _ _ unmet => if_neg unmet
  exact parses.congr (fun piece b => by simp) fun _ => Iff.rfl

/-- An attempt accepts the empty piece when it succeeds. -/
theorem attempt (result : Option α)
    : Parses limit (attempt result) (fun piece a => piece = [] ∧ result = some a)
        (fun _ => False) := by
  cases result with
  | none => exact ⟨fun _ => by simp [CursorParsing.attempt],
      fun _ => by simp [CursorParsing.attempt]⟩
  | some a =>
      have parses : Parses limit (CursorParsing.attempt (some a)) _ _ :=
        still True a (fun _ _ _ => rfl) fun _ _ unmet => absurd trivial unmet
      exact parses.congr (fun piece b => by simp) fun _ => Iff.rfl

/-- An unchecked byte is accepted where there is one, and strays at the end of the text. -/
theorem byte : Parses limit byte (fun piece b => piece = [b]) (fun content => content = []) where
  accepts {front content next b} _ := by
    unfold CursorParsing.byte
    cases content with
    | nil => simp
    | cons c rest =>
        have inside : front.length < (front ++ c :: rest).length := by simp
        have read : get8 (front ++ c :: rest) front.length = c := by
          simp [get8, List.getD_eq_getElem?_getD]
        rw [if_pos inside, read]
        constructor
        · intro same
          obtain ⟨rfl, rfl⟩ := Prod.mk.inj (Except.ok.inj same)
          exact ⟨[c], rest, rfl, rfl, by simp⟩
        · rintro ⟨_, _, split, rfl, rfl⟩
          obtain ⟨rfl, -⟩ := List.cons.inj split
          simp
  strays {front content} _ := by
    unfold CursorParsing.byte
    cases content with
    | nil => simp
    | cons c rest => simp

/-- A branch is described by the description of the side taken. -/
theorem ite (p : Prop) [Decidable p] {m m' : Parser α} (yes : Parses limit m T F)
    (no : Parses limit m' T' F')
    : Parses limit (if p then m else m') (fun piece a => if p then T piece a else T' piece a)
        (fun content => if p then F content else F' content) := by
  split
  case isTrue met => simpa only [met, if_true] using yes
  case isFalse unmet => simpa only [unmet, if_false] using no

/-- A checked run accepts its bytes and never strays: it is refused where bytes are missing. -/
theorem take (n : Nat)
    : Parses limit (take n) (fun piece b => piece = b.toList) (fun _ => False) where
  accepts {front content next b} _ := by
    rw [take_eq]
    by_cases inside : front.length + n ≤ (front ++ content).length
    · obtain ⟨v, rest, rfl⟩ := exists_run inside
      rw [if_pos inside, getRun_between]
      constructor
      · intro same
        obtain ⟨rfl, rfl⟩ := Prod.mk.inj (Except.ok.inj same)
        exact ⟨v.toList, rest, rfl, rfl, by simp⟩
      · rintro ⟨_, _, split, rfl, rfl⟩
        have equal := (List.append_inj split (by simp)).1
        rw [Vector.toList_inj.mp equal, List.length_append, Vector.length_toList]
    · rw [if_neg inside]
      refine ⟨fun impossible => (by cases impossible), ?_⟩
      rintro ⟨_, rest, rfl, rfl, -⟩
      exact absurd (by simp only [List.length_append, Vector.length_toList]; omega) inside
  strays {front content} _ := by
    rw [take_eq]
    split <;> simp

/-- What is made of a run of `n` bytes and holds all of it accepts its own encodings. -/
theorem encoded {n : Nat} {make : Bytes → α} {encode : α → Bytes}
    (length : ∀ a, (encode a).length = n) (make_encode : ∀ a, make (encode a) = a)
    (encode_make : ∀ b : Bytes, b.length = n → encode (make b) = b)
    : Parses limit (do let b ← CursorParsing.take n; return make b.toList)
        (fun piece a => piece = encode a) (fun _ => False) := by
  refine ((take n).bind fun b => pure (make b.toList)).congr ?_ (by simp)
  intro piece a
  constructor
  · rintro ⟨b, _, _, rfl, rfl, rfl, rfl⟩
    rw [List.append_nil, encode_make _ b.length_toList]
  · rintro rfl
    refine ⟨⟨(encode a).toArray, by simp [length]⟩, _, [], ?_, rfl, rfl, ?_⟩
    · simp
    · exact (make_encode a).symm

/-- A word of 16 bits accepts its two bytes in network order. -/
theorem word16 : Parses limit word16 (fun piece w => piece = be16 w) (fun _ => False) :=
  encoded length_be16 ofNat_value_be16
    fun _ => be16_ofNat_value

/-- A word of 32 bits accepts its four bytes in network order. -/
theorem word32 : Parses limit word32 (fun piece w => piece = be32 w) (fun _ => False) :=
  encoded length_be32 ofNat_value_be32
    fun _ => be32_ofNat_value

end Parses

end CursorParsing
