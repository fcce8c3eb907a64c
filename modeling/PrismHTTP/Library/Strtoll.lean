import Mathlib.Data.List.Basic

/-! `strtoll` with base zero, on the bytes from its argument to the end of the block.
Leading space is skipped, then comes an optional sign, and the first digits choose the base.
A number is read from the text before a space alone, whatever comes behind the space.
-/

namespace Strtoll

def isSpace (c : UInt8) : Bool := c = 32 || (9 ≤ c && c ≤ 13)

/-- The value of a digit or letter; 36 for anything else. -/
def digitValue (c : UInt8) : Nat :=
  if 48 ≤ c ∧ c ≤ 57 then c.toNat - 48
  else if 97 ≤ c ∧ c ≤ 122 then c.toNat - 87
  else if 65 ≤ c ∧ c ≤ 90 then c.toNat - 55
  else 36

def isDigit (base : Nat) (c : UInt8) : Bool := digitValue c < base

def hasSign (s : List UInt8) : Bool := s.head? = some 45 || s.head? = some 43

/-- Whether a minus sign comes first, and the text behind the sign. -/
def splitSign (s : List UInt8) : Bool × List UInt8 :=
  match s with
  | [] => (false, s)
  | c :: rest => if c = 45 then (true, rest) else if c = 43 then (false, rest) else (false, s)

/-- Hexadecimal behind `0x` and a digit, octal from another `0`, decimal otherwise. -/
def splitBase (s : List UInt8) : Nat × List UInt8 :=
  match s with
  | [] => (10, s)
  | c :: rest =>
      if c ≠ 48 then
        (10, s)
      else
        match rest with
        | x :: d :: more =>
            if (x = 120 ∨ x = 88) ∧ isDigit 16 d then (16, d :: more) else (8, s)
        | _ => (8, s)

/-- The base, the sign and the digits read, and the number of bytes before the digits. -/
structure Reading where
  negative : Bool
  base : Nat
  digits : List UInt8
  before : Nat

def reading (s : List UInt8) : Reading :=
  let unspaced := s.dropWhile isSpace
  let sign := splitSign unspaced
  let digits := splitBase sign.2
  { negative := sign.1
    base := digits.1
    digits := digits.2.takeWhile (isDigit digits.1)
    before :=
      (s.takeWhile isSpace).length + (if hasSign unspaced then 1 else 0)
        + (if digits.1 = 16 then 2 else 0) }

def Reading.value (r : Reading) : Int :=
  let magnitude : Int := r.digits.foldl (fun n c => n * r.base + digitValue c) 0
  if r.negative then max (-magnitude) (-9223372036854775808)
  else min magnitude 9223372036854775807

/-- The number, and how many bytes `endptr` is behind the argument: none when there is no
digit.
-/
def strtoll (s : List UInt8) : Int × Nat :=
  let r := reading s
  if r.digits = [] then (0, 0) else (r.value, r.before + r.digits.length)

/-- A space is a digit in no base. -/
theorem digitValue_of_isSpace {t : UInt8} (space : isSpace t = true) : digitValue t = 36 := by
  simp only [isSpace, Bool.or_eq_true, decide_eq_true_eq, Bool.and_eq_true,
    UInt8.le_iff_toNat_le, ← UInt8.toNat_inj] at space
  change t.toNat = 32 ∨ 9 ≤ t.toNat ∧ t.toNat ≤ 13 at space
  have none_of (low high : UInt8) (h : 32 < low.toNat) : ¬ (low ≤ t ∧ t ≤ high) := by
    rintro ⟨above, -⟩
    rw [UInt8.le_iff_toNat_le] at above
    omega
  rw [digitValue, if_neg (none_of 48 57 (by decide)), if_neg (none_of 97 122 (by decide)),
    if_neg (none_of 65 90 (by decide))]

/-- A space is no digit in any base that occurs. -/
theorem not_digit_of_isSpace {t : UInt8} {base : Nat} (space : isSpace t = true)
    (small : base ≤ 36)
    : isDigit base t = false := by
  rw [isDigit, digitValue_of_isSpace space]
  simpa using small

/-- A space differs from a byte that is none. -/
theorem ne_of_isSpace {t c : UInt8} (space : isSpace t = true) (other : isSpace c = false)
    : t ≠ c := by
  rintro rfl
  exact Bool.noConfusion (space.symm.trans other)

/-- The sign of a text is told without what follows the text. -/
theorem splitSign_append {u : List UInt8} (rest : List UInt8) (some_byte : u ≠ [])
    : splitSign (u ++ rest) = ((splitSign u).1, (splitSign u).2 ++ rest) := by
  cases u with
  | nil => exact absurd rfl some_byte
  | cons c u =>
      simp only [splitSign, List.cons_append]
      split
      · rfl
      · split <;> rfl

/-- A base is at most 36, by cases on the start of the text. -/
theorem splitBase_le (s : List UInt8) : (splitBase s).1 ≤ 36 := by
  unfold splitBase
  repeat' split
  all_goals simp

/-- Whether a text starts with a sign is told without what follows the text. -/
theorem hasSign_append {u : List UInt8} (rest : List UInt8) (some_byte : u ≠ [])
    : hasSign (u ++ rest) = hasSign u := by
  cases u with
  | nil => exact absurd rfl some_byte
  | cons c u => rfl

/-- A text of which nothing is left was taken as a whole. -/
theorem takeWhile_eq_self_of_dropWhile {p : UInt8 → Bool} {u : List UInt8}
    (h : u.dropWhile p = [])
    : u.takeWhile p = u := by
  have whole := List.takeWhile_append_dropWhile (p := p) (l := u)
  rwa [h, List.append_nil] at whole

/-- A byte that fails the test ends what is taken. -/
theorem takeWhile_append {p : UInt8 → Bool} (u rest : List UInt8) (stop : p t = false)
    : (u ++ t :: rest).takeWhile p = u.takeWhile p := by
  induction u with
  | nil => simp [stop]
  | cons c u ih => simp only [List.cons_append, List.takeWhile_cons, ih]

section Terminated

variable {t : UInt8} (space : isSpace t = true)

include space

/-- Behind a space the base is not looked for. -/
theorem splitBase_append (u rest : List UInt8)
    : splitBase (u ++ t :: rest) = ((splitBase u).1, (splitBase u).2 ++ t :: rest) := by
  have zero := ne_of_isSpace (c := 48) space rfl
  have lower := ne_of_isSpace (c := 120) space rfl
  have upper := ne_of_isSpace (c := 88) space rfl
  have digit : isDigit 16 t = false := not_digit_of_isSpace space (by decide)
  match u with
  | [] => simp [splitBase, zero]
  | [c] =>
      simp only [splitBase, List.cons_append, List.nil_append]
      split
      · rfl
      · cases rest <;> simp [lower, upper]
  | [c, x] =>
      simp only [splitBase, List.cons_append, List.nil_append, digit]
      split <;> simp
  | c :: x :: d :: more =>
      simp only [splitBase, List.cons_append]
      split
      · rfl
      · split <;> rfl

/-- Text with a word in it is read the same whatever comes behind the space after it. -/
theorem reading_append {v : List UInt8} (word : v.dropWhile isSpace ≠ []) (rest : List UInt8)
    : reading (v ++ t :: rest) = reading v := by
  have unspaced : (v ++ t :: rest).dropWhile isSpace = v.dropWhile isSpace ++ t :: rest := by
    rw [List.dropWhile_append, if_neg (by simpa using word)]
  have stop : isDigit (splitBase (splitSign (v.dropWhile isSpace)).2).1 t = false :=
    not_digit_of_isSpace space (splitBase_le _)
  have whole : v.takeWhile isSpace ++ v.dropWhile isSpace = v :=
    List.takeWhile_append_dropWhile
  have shorter : (v.takeWhile isSpace).length ≠ v.length := by
    intro same
    have total := congrArg List.length whole
    rw [List.length_append, same, Nat.add_eq_left, List.length_eq_zero_iff] at total
    exact word total
  have spaces : (v ++ t :: rest).takeWhile isSpace = v.takeWhile isSpace := by
    rw [List.takeWhile_append, if_neg shorter]
  simp only [reading, unspaced, spaces, splitSign_append _ word, hasSign_append _ word,
    splitBase_append space, takeWhile_append _ _ stop]

/-- Text of spaces alone: no number is found, or one behind the space after it. -/
theorem strtoll_blank {v : List UInt8} (blank : v.dropWhile isSpace = []) (rest : List UInt8)
    : strtoll (v ++ t :: rest) = (0, 0) ∨ v.length < (strtoll (v ++ t :: rest)).2 := by
  have unspaced : (v ++ t :: rest).dropWhile isSpace = rest.dropWhile isSpace := by
    rw [List.dropWhile_append, blank, List.isEmpty_nil, if_pos rfl, List.dropWhile_cons,
      if_pos space]
  have spaces : v.length < ((v ++ t :: rest).takeWhile isSpace).length := by
    rw [List.takeWhile_append, if_pos (by rw [takeWhile_eq_self_of_dropWhile blank]),
      List.takeWhile_cons, if_pos space]
    simp
  by_cases none_found : (reading (v ++ t :: rest)).digits = []
  · exact .inl (if_pos none_found)
  · refine .inr ?_
    rw [strtoll, if_neg none_found]
    simp only [reading]
    omega

end Terminated

end Strtoll
