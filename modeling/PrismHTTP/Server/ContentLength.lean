import PrismHTTP.Library.Numeral
import PrismHTTP.Server.HeaderLookup

/-! The length a Content-Length header declares.
The value is read as C reads an integer constant, in any base and with a sign; so a decimal
number with leading zeros is read as an octal one, and values that are not digits alone are
taken for lengths too.
-/

namespace PrismHTTP.Server
open Strtoll

/-- One or more decimal digits. -/
def AllDigits (v : Bytes) : Prop := v ≠ [] ∧ ∀ c ∈ v, isDigit 10 c = true

/-- The number the value denotes in decimal, or none. -/
def ReadsDecimal (v : Bytes) (n : UInt64) : Prop :=
  (AllDigits v → n.toNat = magnitude 10 v) ∧ (¬ AllDigits v → n = 0)

/-- A number without leading zeros or below eight, or else no numeral of C's other than zero. -/
def Unambiguous (v : Bytes) : Prop :=
  (AllDigits v → v.head? = some 48 → magnitude 10 v < 8)
  ∧ (¬ AllDigits v → ∀ negative base digits, Numeral v negative base digits
      → ∀ c ∈ digits, digitValue c = 0)

section Values

variable {v : Bytes} {negative : Bool} {base : Nat} {digits : List UInt8}

/-- A numeral is read as its magnitude within the bounds of a `long long`, then made unsigned.
-/
theorem wholeNumber_numeral (numeral : Numeral v negative base digits)
    : wholeNumber v v.length = UInt64.ofInt (bounded negative (magnitude base digits)) := by
  rw [wholeNumber, strtoll_numeral numeral, if_neg (not_not.mpr rfl)]

/-- What is no numeral is read as zero. -/
theorem wholeNumber_other (other : ∀ negative base digits, ¬ Numeral v negative base digits)
    : wholeNumber v v.length = 0 := by
  by_cases none_left : v = []
  · subst none_left
    rfl
  · refine if_pos fun whole => ?_
    obtain ⟨negative, base, digits, numeral⟩ := numeral_of_whole none_left whole
    exact other _ _ _ numeral

/-- The conversion to unsigned keeps whether the number is zero. -/
theorem ofInt_bounded_eq_zero_iff (negative : Bool) (n : Nat)
    : UInt64.ofInt (bounded negative n) = 0 ↔ n = 0 := by
  have range : -9223372036854775808 ≤ bounded negative n
      ∧ bounded negative n ≤ 9223372036854775807
      ∧ (bounded negative n = 0 ↔ n = 0) := by
    unfold bounded
    split <;> omega
  obtain ⟨low, high, zero⟩ := range
  rw [← zero, ← UInt64.toNat_inj, UInt64.ofInt, UInt64.toNat_ofNat', UInt64.toNat_zero]
  omega

/-- A magnitude below `2 ^ 63` survives both conversions. -/
theorem toNat_ofInt_bounded {n : Nat} (small : n < 2 ^ 63)
    : (UInt64.ofInt (bounded false n)).toNat = n := by
  have whole : bounded false n = n := by
    rw [bounded, if_neg (by decide)]
    omega
  rw [whole, UInt64.ofInt, UInt64.toNat_ofNat']
  omega

/-- A value is read as zero exactly when no numeral with a digit other than zero is in it: it
is no numeral, or one of zeros.
-/
theorem wholeNumber_eq_zero_iff
    : wholeNumber v v.length = 0
      ↔ ∀ negative base digits, Numeral v negative base digits
          → ∀ c ∈ digits, digitValue c = 0 := by
  constructor
  · intro zero negative base digits numeral
    obtain ⟨_, _, _, -, -, -, constant⟩ := numeral.parts
    rw [wholeNumber_numeral numeral, ofInt_bounded_eq_zero_iff,
      magnitude_eq_zero_iff constant.base_pos] at zero
    exact zero
  · intro zeros
    by_cases numeral : ∃ negative base digits, Numeral v negative base digits
    · obtain ⟨negative, base, digits, numeral⟩ := numeral
      obtain ⟨_, _, _, -, -, -, constant⟩ := numeral.parts
      rw [wholeNumber_numeral numeral, ofInt_bounded_eq_zero_iff,
        magnitude_eq_zero_iff constant.base_pos]
      exact zeros _ _ _ numeral
    · exact wholeNumber_other fun negative base digits found =>
        numeral ⟨negative, base, digits, found⟩

/-- A numeral of digits alone has no blanks and no sign, and is not hexadecimal. -/
theorem AllDigits.literal (all : AllDigits v) (numeral : Numeral v negative base digits)
    : Literal v base digits ∧ base ≠ 16 := by
  obtain ⟨blanks, sign, literal, rfl, spaces, signed, constant⟩ := numeral.parts
  have digit := all.2
  have none_blank : blanks = [] := by
    rcases blanks with _ | ⟨c, blanks⟩
    · rfl
    · have blank := spaces c (List.mem_cons_self ..)
      rw [not_space_of_digit (digit c (by simp)) (by decide)] at blank
      contradiction
  subst none_blank
  have none_sign : sign = [] := by
    cases signed with
    | none => rfl
    | plus => exact absurd (digit 43 (by simp)) (by decide)
    | minus => exact absurd (digit 45 (by simp)) (by decide)
  subst none_sign
  refine ⟨constant, ?_⟩
  cases constant with
  | decimal first all => decide
  | octal all => decide
  | @hexadecimal x d ds marker all =>
      have mark := digit x (by simp)
      rcases marker with rfl | rfl <;> exact absurd mark (by decide)

/-- Digits without a leading zero are read in decimal. -/
theorem wholeNumber_decimal (all : AllDigits v) (leading : v.head? ≠ some 48)
    (small : magnitude 10 v < 2 ^ 63)
    : (wholeNumber v v.length).toNat = magnitude 10 v := by
  obtain ⟨some_byte, digit⟩ := all
  rcases v with _ | ⟨c, ds⟩
  · exact absurd rfl some_byte
  · have first : c ≠ 48 := fun zero => leading (by rw [zero]; rfl)
    have numeral := (Literal.decimal first digit).numeral
    rw [wholeNumber_numeral numeral, toNat_ofInt_bounded small]

/-- With a leading zero they are read in octal, which is right below eight alone. -/
theorem wholeNumber_octal (all : AllDigits v) (leading : v.head? = some 48)
    (small : magnitude 10 v < 2 ^ 63)
    : (wholeNumber v v.length).toNat = magnitude 10 v ↔ magnitude 10 v < 8 := by
  obtain ⟨some_byte, digit⟩ := all
  rcases v with _ | ⟨c, ds⟩
  · exact absurd rfl some_byte
  · have zero : c = 48 := Option.some.inj leading
    subst zero
    by_cases octal : ∀ e ∈ 48 :: ds, isDigit 8 e = true
    · have numeral := (Literal.octal octal).numeral
      have less := magnitude_le (show 8 ≤ 10 by decide) (48 :: ds)
      rw [wholeNumber_numeral numeral, toNat_ofInt_bounded (by omega)]
      exact magnitude_eq_iff (by decide) (by decide) _
        fun e member => of_decide_eq_true (octal e member)
    -- an eight or a nine ends the number early
    · have other (negative : Bool) (base : Nat) (digits : List UInt8)
          : ¬ Numeral (48 :: ds) negative base digits := by
        intro numeral
        obtain ⟨constant, lower⟩ := AllDigits.literal ⟨some_byte, digit⟩ numeral
        cases constant with
        | decimal first all => exact absurd rfl first
        | octal all => exact absurd all octal
        | hexadecimal marker all => exact absurd rfl lower
      obtain ⟨e, member, large⟩ := not_forall₂.mp octal
      have value : 8 ≤ digitValue e := by
        rw [isDigit, decide_eq_true_eq, Nat.not_lt] at large
        exact large
      have part := digitValue_le_magnitude (show 0 < 10 by decide) member
      rw [wholeNumber_other other, UInt64.toNat_zero]
      exact iff_of_false (by omega) (by omega)

/-- A value is read as decimal exactly when it is not ambiguous. -/
theorem wholeNumber_readsDecimal_iff (small : AllDigits v → magnitude 10 v < 2 ^ 63)
    : ReadsDecimal v (wholeNumber v v.length) ↔ Unambiguous v := by
  rw [ReadsDecimal, Unambiguous, wholeNumber_eq_zero_iff]
  refine and_congr_left' (forall_congr' fun all => ?_)
  by_cases leading : v.head? = some 48
  · rw [wholeNumber_octal all leading (small all), forall_prop_of_true leading]
  · exact iff_of_true (wholeNumber_decimal all leading (small all))
      fun zero => absurd zero leading

end Values

/-- The length found in a parsed request is the decimal one exactly when the value of its
Content-Length is not ambiguous.
-/
theorem determineBodyLen_readsDecimal_iff {req : HttpRequest} {h : HttpHeader} {v rest : Bytes}
    {t : UInt8} (found : httpRequestFindHeader req contentLength = some h)
    (len : h.val.len = v.length) (value : req.mem.behind h.val.ptr = v ++ t :: rest)
    (ended : isLineEnd t = true) (small : AllDigits v → magnitude 10 v < 2 ^ 63)
    : ReadsDecimal v (httpRequestDetermineBodyLen req) ↔ Unambiguous v := by
  have space : isSpace t = true := by
    rw [isLineEnd, Bool.or_eq_true, decide_eq_true_eq, decide_eq_true_eq] at ended
    rcases ended with rfl | rfl <;> decide
  rw [httpRequestDetermineBodyLen, found]
  simp only [value, len, wholeNumber_append space]
  exact wholeNumber_readsDecimal_iff small

section Sample

/-- "PUT / HTTP/1.1" with the header "Content-Length: 010". -/
def sampleOctalBytes : Bytes :=
  [0x50, 0x55, 0x54, 0x20, 0x2f, 0x20, 0x48, 0x54, 0x54, 0x50, 0x2f, 0x31, 0x2e, 0x31, 0x0a,
    0x43, 0x6f, 0x6e, 0x74, 0x65, 0x6e, 0x74, 0x2d, 0x4c, 0x65, 0x6e, 0x67, 0x74, 0x68, 0x3a,
    0x20, 0x30, 0x31, 0x30, 0x0a, 0x0a]

def sampleOctal : HttpRequest := receivedText sampleOctalBytes

def sampleOctalHeader : HttpHeader where
  name := ⟨4111, 14⟩
  val := ⟨4127, 3⟩

/-- The value `010` is read in decimal exactly when it is unambiguous. -/
theorem determineBodyLen_sample
    : ReadsDecimal [0x30, 0x31, 0x30]
        (httpRequestDetermineBodyLen (httpParseRequest phrParseRequest sampleOctal).2)
      ↔ Unambiguous [0x30, 0x31, 0x30] :=
  @determineBodyLen_readsDecimal_iff (httpParseRequest phrParseRequest sampleOctal).2
    sampleOctalHeader [0x30, 0x31, 0x30] [0x0a] 0x0a rfl rfl (by decide +kernel) rfl
    fun _ => by decide

/-- The header found is the one named so; it declares ten bytes, and eight are expected. -/
theorem determineBodyLen_octal
    : httpRequestFindHeader (httpParseRequest phrParseRequest sampleOctal).2 contentLength
        = some sampleOctalHeader
      ∧ sampleOctal.mem.text sampleOctalHeader.name = some contentLength
      ∧ ¬ ReadsDecimal [0x30, 0x31, 0x30]
          (httpRequestDetermineBodyLen (httpParseRequest phrParseRequest sampleOctal).2) := by
  refine ⟨rfl, by decide, ?_⟩
  rintro ⟨decimal, -⟩
  have ten := decimal ⟨by simp, by decide +kernel⟩
  revert ten
  decide +kernel

end Sample

end PrismHTTP.Server
