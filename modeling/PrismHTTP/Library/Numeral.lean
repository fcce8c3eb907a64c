import Mathlib.Data.List.Induction
import Mathlib.Data.List.TakeWhile
import PrismHTTP.Library.Strtoll

/-! The texts that `strtoll` reads to their end.
With base zero they are C's integer constants behind blanks and one sign: decimal without a
leading zero, octal with one, or hexadecimal behind `0x`.
-/

namespace Strtoll

/-- An integer constant, with its base and the digits that count. -/
inductive Literal : List UInt8 → Nat → List UInt8 → Prop
  | decimal {c : UInt8} {ds : List UInt8} (first : c ≠ 48)
      (all : ∀ e ∈ c :: ds, isDigit 10 e = true)
      : Literal (c :: ds) 10 (c :: ds)
  | octal {ds : List UInt8} (all : ∀ e ∈ 48 :: ds, isDigit 8 e = true)
      : Literal (48 :: ds) 8 (48 :: ds)
  | hexadecimal {x d : UInt8} {ds : List UInt8} (marker : x = 120 ∨ x = 88)
      (all : ∀ e ∈ d :: ds, isDigit 16 e = true)
      : Literal (48 :: x :: d :: ds) 16 (d :: ds)

/-- What may stand before a constant, and whether it is a minus. -/
inductive Sign : List UInt8 → Bool → Prop
  | none : Sign [] false
  | plus : Sign [43] false
  | minus : Sign [45] true

/-- Blanks, a sign and an integer constant. -/
structure Numeral (v : List UInt8) (negative : Bool) (base : Nat) (digits : List UInt8)
    : Prop where
  parts
    : ∃ blanks sign literal, v = blanks ++ (sign ++ literal)
      ∧ (∀ c ∈ blanks, isSpace c = true) ∧ Sign sign negative ∧ Literal literal base digits

/-- The number the digits denote. -/
def magnitude (base : Nat) (digits : List UInt8) : Nat :=
  digits.foldl (fun n c => n * base + digitValue c) 0

/-- A digit, as opposed to what may come before one. -/
theorem not_space_of_digit {base : Nat} {c : UInt8} (digit : isDigit base c = true)
    (small : base ≤ 36)
    : isSpace c = false := by
  rcases space : isSpace c with _ | _
  · rfl
  · exact absurd digit (by simp [not_digit_of_isSpace space small])

/-- A digit differs from a byte that is none. -/
theorem ne_of_digit {base : Nat} {c d : UInt8} (digit : isDigit base c = true)
    (other : isDigit base d = false)
    : c ≠ d := by
  rintro rfl
  exact Bool.noConfusion (digit.symm.trans other)

section Literals

variable {literal digits : List UInt8} {base : Nat}

/-- The base of a constant is positive, by cases on its kind. -/
theorem Literal.base_pos (h : Literal literal base digits) : 0 < base := by
  cases h <;> decide

/-- A constant has a digit, by cases on its kind. -/
theorem Literal.digits_ne_nil (h : Literal literal base digits) : digits ≠ [] := by
  cases h <;> simp

/-- The first byte is a decimal digit in any case. -/
theorem Literal.head (h : Literal literal base digits)
    : ∃ c rest, literal = c :: rest ∧ isDigit 10 c = true := by
  cases h with
  | decimal first all => exact ⟨_, _, rfl, all _ (List.mem_cons_self ..)⟩
  | octal all => exact ⟨_, _, rfl, rfl⟩
  | hexadecimal marker all => exact ⟨_, _, rfl, rfl⟩

/-- The base is told from the constant's start, and its digits are all that is left. -/
theorem Literal.splitBase (h : Literal literal base digits)
    : splitBase literal = (base, digits) := by
  cases h with
  | decimal first all => simp [Strtoll.splitBase, first]
  | @octal ds all =>
      rcases ds with _ | ⟨x, _ | ⟨d, more⟩⟩
      · rfl
      · rfl
      · have digit := all x (by simp)
        have lower := ne_of_digit (d := 120) digit rfl
        have upper := ne_of_digit (d := 88) digit rfl
        simp [Strtoll.splitBase, lower, upper]
  | @hexadecimal x d ds marker all =>
      have digit := all d (List.mem_cons_self ..)
      simp [Strtoll.splitBase, marker, digit]

/-- Every counted digit of a constant is one of its base. -/
theorem Literal.takeWhile (h : Literal literal base digits)
    : digits.takeWhile (isDigit base) = digits := by
  rw [List.takeWhile_eq_self_iff]
  cases h with
  | decimal first all => exact all
  | octal all => exact all
  | hexadecimal marker all => exact all

/-- A constant is as long as its digits, with two bytes more for `0x`. -/
theorem Literal.length (h : Literal literal base digits)
    : literal.length = (if base = 16 then 2 else 0) + digits.length := by
  cases h with
  | decimal first all => rw [if_neg (by decide), Nat.zero_add]
  | octal all => rw [if_neg (by decide), Nat.zero_add]
  | hexadecimal marker all =>
      rw [if_pos rfl]
      simp only [List.length_cons]
      omega

/-- Text whose digits go to its end is a constant. -/
theorem literal_of_whole {s : List UInt8} (some_byte : (Strtoll.splitBase s).2 ≠ [])
    (all : (Strtoll.splitBase s).2.takeWhile (isDigit (Strtoll.splitBase s).1)
      = (Strtoll.splitBase s).2)
    : Literal s (Strtoll.splitBase s).1 (Strtoll.splitBase s).2 := by
  rw [List.takeWhile_eq_self_iff] at all
  unfold Strtoll.splitBase at all some_byte ⊢
  split
  · exact absurd rfl some_byte
  · next c rest =>
    split
    · next first =>
      simp only [if_pos first] at all
      exact .decimal first all
    · next zero =>
      simp only [if_neg zero] at all
      have start : c = 48 := not_not.mp zero
      subst start
      split
      · next x d more =>
        split
        · next mark =>
          simp only [if_pos mark] at all
          exact .hexadecimal mark.1 all
        · next mark =>
          simp only [if_neg mark] at all
          exact .octal all
      · next short =>
        exact .octal (by simpa using all)

end Literals

section Numerals

variable {v : List UInt8} {negative : Bool} {base : Nat} {digits : List UInt8}

/-- The number of a text that is read whole, which `strtoll` cuts off at its ends. -/
def bounded (negative : Bool) (n : Nat) : Int :=
  if negative then max (-n) (-9223372036854775808) else min n 9223372036854775807

/-- A constant alone is a numeral. -/
theorem Literal.numeral (h : Literal v base digits) : Numeral v false base digits :=
  ⟨[], [], v, rfl, by simp, .none, h⟩

/-- Digits add up the same in `Int` and in `Nat`, by induction on the digits. -/
theorem foldl_cast (base : Nat) (digits : List UInt8) (n : Nat)
    : digits.foldl (fun (n : Int) c => n * base + digitValue c) n
      = (digits.foldl (fun n c => n * base + digitValue c) n : Nat) := by
  induction digits generalizing n with
  | nil => rfl
  | cons c digits ih =>
      rw [List.foldl_cons, List.foldl_cons, ← ih]
      simp

/-- The value of a reading is its magnitude within the bounds of a `long long`. -/
theorem Reading.value_eq (r : Reading)
    : r.value = bounded r.negative (magnitude r.base r.digits) := by
  have whole := foldl_cast r.base r.digits 0
  simp only [Int.natCast_zero] at whole
  rw [Reading.value, whole]
  rfl

/-- A sign is told from the text behind it, which starts with a digit. -/
theorem Sign.split {sign : List UInt8} (h : Sign sign negative) {c : UInt8}
    (digit : isDigit 10 c = true) (rest : List UInt8)
    : splitSign (sign ++ c :: rest) = (negative, c :: rest)
      ∧ (if hasSign (sign ++ c :: rest) then 1 else 0) = sign.length := by
  cases h with
  | none =>
      have minus := ne_of_digit (d := 45) digit rfl
      have plus := ne_of_digit (d := 43) digit rfl
      simp [splitSign, hasSign, minus, plus]
  | plus => exact ⟨rfl, rfl⟩
  | minus => exact ⟨rfl, rfl⟩

/-- Behind the blanks there is a byte that is none. -/
theorem Sign.start {sign : List UInt8} (h : Sign sign negative) {c : UInt8}
    (digit : isDigit 10 c = true) (rest : List UInt8)
    : ∃ d more, sign ++ c :: rest = d :: more ∧ isSpace d = false := by
  cases h with
  | none => exact ⟨c, rest, rfl, not_space_of_digit digit (by decide)⟩
  | plus => exact ⟨43, c :: rest, rfl, rfl⟩
  | minus => exact ⟨45, c :: rest, rfl, rfl⟩

/-- A numeral is read to its end, and its value is its magnitude within the bounds. -/
theorem strtoll_numeral (h : Numeral v negative base digits)
    : strtoll v = (bounded negative (magnitude base digits), v.length) := by
  obtain ⟨blanks, sign, literal, rfl, spaces, signed, constant⟩ := h.parts
  obtain ⟨c, rest, start, digit⟩ := constant.head
  obtain ⟨d, more, word, stop⟩ := signed.start digit rest
  obtain ⟨behind, count⟩ := signed.split digit rest
  rw [← start] at word behind count
  have skipped : (blanks ++ (sign ++ literal)).dropWhile isSpace = sign ++ literal := by
    rw [List.dropWhile_append_of_pos spaces, word, List.dropWhile_cons_of_neg (by simp [stop])]
  have taken : (blanks ++ (sign ++ literal)).takeWhile isSpace = blanks := by
    rw [List.takeWhile_append_of_pos spaces, word, List.takeWhile_cons_of_neg (by simp [stop]),
      List.append_nil]
  have read : reading (blanks ++ (sign ++ literal))
      = ⟨negative, base, digits, blanks.length + sign.length + if base = 16 then 2 else 0⟩ := by
    simp only [reading, skipped, taken, behind, count, constant.splitBase, constant.takeWhile]
  rw [strtoll, read]
  simp only [if_neg constant.digits_ne_nil, Reading.value_eq, List.length_append,
    constant.length, Nat.add_assoc]

/-- The text behind a sign, and the sign. -/
theorem sign_splitSign (s : List UInt8)
    : ∃ sign, s = sign ++ (splitSign s).2 ∧ Sign sign (splitSign s).1
      ∧ (if hasSign s then 1 else 0) = sign.length := by
  rcases s with _ | ⟨c, rest⟩
  · exact ⟨[], rfl, .none, rfl⟩
  · simp only [splitSign, hasSign, List.head?_cons, Option.some.injEq]
    by_cases minus : c = 45
    · subst minus
      exact ⟨[45], rfl, .minus, rfl⟩
    · by_cases plus : c = 43
      · subst plus
        exact ⟨[43], rfl, .plus, rfl⟩
      · refine ⟨[], ?_, ?_, ?_⟩
        · simp [minus, plus]
        · simpa [minus, plus] using Sign.none
        · simp [minus, plus]

/-- The base and the digits of a text account for its length. -/
theorem length_splitBase (s : List UInt8)
    : s.length = (if (splitBase s).1 = 16 then 2 else 0) + (splitBase s).2.length := by
  unfold splitBase
  repeat' split
  all_goals simp_all
  all_goals omega

/-- Only numerals are read to their end. -/
theorem numeral_of_whole (some_byte : v ≠ []) (whole : (strtoll v).2 = v.length)
    : ∃ negative base digits, Numeral v negative base digits := by
  have nonzero : v.length ≠ 0 := fun zero => some_byte (List.length_eq_zero_iff.mp zero)
  obtain ⟨sign, split, signed, count⟩ := sign_splitSign (v.dropWhile isSpace)
  have total : v = v.takeWhile isSpace ++ (sign ++ (splitSign (v.dropWhile isSpace)).2) := by
    rw [← split, List.takeWhile_append_dropWhile]
  have blanks : ∀ c ∈ v.takeWhile isSpace, isSpace c = true := fun c => List.mem_takeWhile_imp
  have lengths := congrArg List.length total
  have literal := length_splitBase (splitSign (v.dropWhile isSpace)).2
  rw [List.length_append, List.length_append] at lengths
  simp only [strtoll] at whole
  split at whole
  · exact absurd whole.symm nonzero
  · next some_digit =>
    simp only [reading, count] at whole some_digit
    -- nothing is left behind the digits
    have all := (List.takeWhile_prefix (l := (splitBase (splitSign (v.dropWhile isSpace)).2).2)
      (isDigit (splitBase (splitSign (v.dropWhile isSpace)).2).1)).eq_of_length (by omega)
    have constant := literal_of_whole (fun none_left => some_digit (by rw [none_left]; rfl)) all
    exact ⟨_, _, _, ⟨_, _, _, total, blanks, signed, constant⟩⟩

end Numerals

section Magnitude

/-- Another digit at the end multiplies by the base and adds its value. -/
theorem magnitude_append (base : Nat) (digits : List UInt8) (c : UInt8)
    : magnitude base (digits ++ [c]) = magnitude base digits * base + digitValue c := by
  rw [magnitude, List.foldl_append]
  rfl

/-- The same digits denote no less in a larger base, by induction from the end. -/
theorem magnitude_le {a b : Nat} (h : a ≤ b) (digits : List UInt8)
    : magnitude a digits ≤ magnitude b digits := by
  induction digits using List.reverseRecOn with
  | nil => exact Nat.le_refl _
  | append_singleton digits c ih =>
      rw [magnitude_append, magnitude_append]
      exact Nat.add_le_add_right (Nat.mul_le_mul ih h) _

/-- Each digit is part of the number. -/
theorem digitValue_le_magnitude {base : Nat} (positive : 0 < base) {digits : List UInt8}
    {c : UInt8} (member : c ∈ digits)
    : digitValue c ≤ magnitude base digits := by
  -- from the last digit, since the magnitude is built from the first
  induction digits using List.reverseRecOn with
  | nil => exact absurd member (by simp)
  | append_singleton digits d ih =>
      rw [magnitude_append]
      rcases List.mem_append.mp member with earlier | last
      · have part := ih earlier
        have grown := Nat.le_mul_of_pos_right (magnitude base digits) positive
        omega
      · rw [List.mem_singleton.mp last]
        exact Nat.le_add_left ..

/-- A number is zero exactly when all its digits are. -/
theorem magnitude_eq_zero_iff {base : Nat} (positive : 0 < base) (digits : List UInt8)
    : magnitude base digits = 0 ↔ ∀ c ∈ digits, digitValue c = 0 := by
  constructor
  · intro zero c member
    have part := digitValue_le_magnitude positive member
    omega
  · intro zeros
    induction digits using List.reverseRecOn with
    | nil => rfl
    | append_singleton digits d ih =>
        rw [magnitude_append, ih fun c member => zeros c (List.mem_append_left _ member),
          zeros d (by simp), Nat.zero_mul]

/-- The same digits are the same number in two bases exactly when only the last can count. -/
theorem magnitude_eq_iff {a b : Nat} (positive : 0 < a) (less : a < b) (digits : List UInt8)
    (small : ∀ c ∈ digits, digitValue c < a)
    : magnitude a digits = magnitude b digits ↔ magnitude b digits < a := by
  rcases List.eq_nil_or_concat digits with rfl | ⟨front, c, rfl⟩
  · exact iff_of_true rfl positive
  · have bound := small c (by simp)
    have order := magnitude_le (Nat.le_of_lt less) front
    have scaled := Nat.mul_le_mul_right a order
    rw [List.concat_eq_append, magnitude_append, magnitude_append]
    rcases Nat.eq_zero_or_pos (magnitude b front) with zero | some_front
    · have nothing : magnitude a front = 0 := by omega
      rw [zero, nothing]
      simpa using bound
    · have grown : magnitude b front * a < magnitude b front * b :=
        Nat.mul_lt_mul_of_pos_left less some_front
      have least := Nat.le_mul_of_pos_left b some_front
      exact iff_of_false (by omega) (by omega)

end Magnitude

end Strtoll
