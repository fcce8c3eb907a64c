import Mathlib.Data.List.DropRight
import PrismHTTP.Server.ParsedNames
import PrismHTTP.Server.ResponseGrammar

/-! The request heads the vendored parser accepts.
A head is a structure whose fields carry the conditions on its parts, so every head there is
prints to text the parser accepts; and whatever it accepts starts with a printed head.
-/

namespace PrismHTTP.Server
open Phr

/-- A line end, with or without a carriage return. -/
inductive LineEnd where
  | crlf
  | lf
  deriving DecidableEq

def LineEnd.bytes : LineEnd → Bytes
  | .crlf => [13, 10]
  | .lf => [10]

/-- A byte of a method or a path. -/
def isVisible (c : UInt8) : Bool := 32 < c && c ≠ 127

/-- A method or a path. -/
structure Word where
  bytes : Bytes
  nonempty : bytes ≠ []
  visible : ∀ c ∈ bytes, isVisible c = true

structure HeaderName where
  bytes : Bytes
  nonempty : bytes ≠ []
  token : ∀ c ∈ bytes, tokenChar c = true

/-- One line of the header block. A line without a name starts with a blank and goes on with
the header before it. Blanks at the value's ends are no part of it.
-/
structure HeaderLine where
  name : Option HeaderName
  gap : Bytes
  value : Bytes
  trail : Bytes
  ends : LineEnd
  gap_blank : ∀ c ∈ gap, isBlank c = true
  folded_gap : name = none → gap ≠ []
  oneLine : OneLine value
  value_starts : ∀ c ∈ value.head?, isBlank c = false
  value_ends : ∀ c ∈ value.getLast?, isBlank c = false
  trail_blank : ∀ c ∈ trail, isBlank c = true
  trail_nil : value = [] → trail = []

namespace HeaderLine

/-- The name with its colon. -/
def label (line : HeaderLine) : Bytes :=
  match line.name with
  | none => []
  | some name => name.bytes ++ [58]

def content (line : HeaderLine) : Bytes := line.gap ++ (line.value ++ line.trail)

def bytes (line : HeaderLine) : Bytes := line.label ++ (line.content ++ line.ends.bytes)

/-- Where the parser finds the line's parts; the value of a line without a name starts with
the blanks before it.
-/
def place (line : HeaderLine) (ofs : Nat) : PhrHeader :=
  match line.name with
  | none =>
      ⟨⟨none, 0⟩, ⟨some ofs, if line.value = [] then 0 else line.gap.length + line.value.length⟩⟩
  | some name =>
      ⟨⟨some ofs, name.bytes.length⟩,
        ⟨some (ofs + name.bytes.length + 1 + line.gap.length), line.value.length⟩⟩

/-- The places of lines one behind the other. -/
def places (ofs : Nat) : List HeaderLine → List PhrHeader
  | [] => []
  | line :: lines => line.place ofs :: places (ofs + line.bytes.length) lines

end HeaderLine

/-- The head of a request: the request line behind an empty line that may be left from the
request before, at most 16 header lines, and the empty line.
-/
structure RequestHead where
  leading : Option LineEnd
  method : Word
  path : Word
  minor : Fin 10
  ends : LineEnd
  headers : List HeaderLine
  final : LineEnd
  headers_le : headers.length ≤ HTTP_HEADERS_MAX
  first_named : ∀ line ∈ headers.head?, line.name ≠ none

/-- "HTTP/1." and the minor version. -/
def versionBytes (minor : Fin 10) : Bytes :=
  [72, 84, 84, 80, 47, 49, 46, UInt8.ofNat (48 + minor)]

namespace RequestHead

def before (head : RequestHead) : Bytes := (head.leading.map LineEnd.bytes).getD []

def requestLine (head : RequestHead) : Bytes :=
  head.method.bytes ++ 32 :: (head.path.bytes ++ 32 :: (versionBytes head.minor ++ head.ends.bytes))

def headerLines (head : RequestHead) : Bytes :=
  head.headers.flatMap HeaderLine.bytes ++ head.final.bytes

def bytes (head : RequestHead) : Bytes := head.before ++ (head.requestLine ++ head.headerLines)

/-- What the parser stores of it. -/
def parsed (head : RequestHead) : Parsed where
  method := ⟨some head.before.length, head.method.bytes.length⟩
  path := ⟨some (head.before.length + head.method.bytes.length + 1), head.path.bytes.length⟩
  minorVersion := (head.minor : Nat)
  headers := HeaderLine.places (head.before.length + head.requestLine.length) head.headers

end RequestHead

namespace Phr

section Lexemes

variable {ofs : Nat} {rest : Bytes} {next : Cursor}

/-- The parser finds a line end exactly where the grammar has one, by cases on the first two
bytes.
-/
theorem lineEnd?_eq_some
    : lineEnd? ⟨ofs, rest⟩ = .ok (some next)
      ↔ ∃ (e : LineEnd) (tail : Bytes),
          rest = e.bytes ++ tail ∧ next = ⟨ofs + e.bytes.length, tail⟩ := by
  constructor
  · intro h
    rcases rest with _ | ⟨c, rest⟩
    · cases h
    · simp only [lineEnd?] at h
      split at h
      · next cr =>
        obtain ⟨after, feed, same⟩ := ok_of_map h
        cases same
        rcases rest with _ | ⟨d, rest⟩
        · cases feed
        · simp only [expectChar] at feed
          split at feed
          · next nl =>
            cases feed
            exact ⟨.crlf, rest, by rw [cr, nl]; rfl, rfl⟩
          · cases feed
      · split at h
        · next nl =>
          cases h
          exact ⟨.lf, rest, by rw [nl]; rfl, rfl⟩
        · cases h
  · rintro ⟨e, tail, rfl, rfl⟩
    cases e <;> rfl

/-- The parser finds no line end exactly where another byte is, by cases on the first byte. -/
theorem lineEnd?_eq_none
    : lineEnd? ⟨ofs, rest⟩ = .ok none
      ↔ ∃ (c : UInt8) (tail : Bytes), rest = c :: tail ∧ isLineEnd c = false := by
  constructor
  · intro h
    rcases rest with _ | ⟨c, rest⟩
    · cases h
    · simp only [lineEnd?] at h
      split at h
      · obtain ⟨after, -, same⟩ := ok_of_map h
        cases same
      · split at h
        · cases h
        · next notReturn notFeed =>
          exact ⟨c, rest, rfl, by simp [isLineEnd, notReturn, notFeed]⟩
  · rintro ⟨c, tail, rfl, other⟩
    simp only [isLineEnd, Bool.or_eq_false_iff, decide_eq_false_iff_not] at other
    rw [lineEnd?]
    dsimp only
    rw [if_neg other.1, if_neg other.2]

/-- A token of the request line goes up to the space behind it. -/
theorem advanceToken_eq_ok
    : advanceToken ofs rest = .ok next
      ↔ ∃ word tail : Bytes,
          rest = word ++ 32 :: tail ∧ (∀ c ∈ word, isVisible c = true)
          ∧ next = ⟨ofs + word.length, 32 :: tail⟩ := by
  -- on the text, a byte at a time, as the scan goes
  induction rest generalizing ofs with
  | nil =>
      constructor
      · intro h
        cases h
      · rintro ⟨word, tail, empty, -⟩
        simp at empty
  | cons c rest ih =>
      rw [advanceToken]
      constructor
      · intro h
        split at h
        · next space =>
          cases h
          exact ⟨[], rest, by rw [space]; rfl, by simp, by simp [space]⟩
        · split at h
          · cases h
          · next other printable =>
            obtain ⟨word, tail, rfl, visible, rfl⟩ := ih.mp h
            refine ⟨c :: word, tail, rfl, ?_, ?_⟩
            · refine List.forall_mem_cons.mpr ⟨?_, visible⟩
              simp only [isVisible, Bool.and_eq_true, decide_eq_true_eq]
              rw [not_or] at printable
              refine ⟨UInt8.lt_of_le_of_ne (UInt8.not_lt.mp printable.1) (Ne.symm other),
                printable.2⟩
            · simp only [List.length_cons]
              rw [Nat.add_assoc, Nat.add_comm 1]
      · rintro ⟨word, tail, same, visible, rfl⟩
        -- the word ends here exactly when this byte is the space
        rcases word with _ | ⟨d, word⟩
        · obtain ⟨rfl, rfl⟩ := List.cons.inj same
          rfl
        · obtain ⟨rfl, rfl⟩ := List.cons.inj same
          obtain ⟨here, later⟩ := List.forall_mem_cons.mp visible
          simp only [isVisible, Bool.and_eq_true, decide_eq_true_eq] at here
          have above : ¬ (c < 32 ∨ c = 127) := by
            rintro (low | delete)
            · exact UInt8.lt_asymm low here.1
            · exact here.2 delete
          rw [if_neg (UInt8.ne_of_lt here.1).symm, if_neg above]
          refine ih.mpr ⟨word, tail, rfl, later, ?_⟩
          simp only [List.length_cons]
          rw [Nat.add_assoc, Nat.add_comm 1]

/-- The parser finds a line exactly where text without control characters ends in a line end,
by induction on the text.
-/
theorem getTokenToEol_eq_ok {stop : Nat}
    : getTokenToEol ofs rest = .ok (stop, next)
      ↔ ∃ (token : Bytes) (e : LineEnd) (tail : Bytes),
          rest = token ++ (e.bytes ++ tail) ∧ OneLine token ∧ stop = ofs + token.length
          ∧ next = ⟨ofs + token.length + e.bytes.length, tail⟩ := by
  constructor
  · intro h
    -- on the text; a line end stops the scan, another unprintable byte refuses it
    induction rest generalizing ofs with
    | nil => cases h
    | cons c rest ih =>
        simp only [getTokenToEol] at h
        split at h
        · split at h
          · next cr =>
            obtain ⟨after, feed, same⟩ := ok_of_map h
            cases same
            have found : lineEnd? ⟨stop, c :: rest⟩ = .ok (some next) := by
              rw [lineEnd?]
              dsimp only
              rw [if_pos cr, feed]
              rfl
            obtain ⟨e, tail, same, rfl⟩ := lineEnd?_eq_some.mp found
            exact ⟨[], e, tail, same, by simp [OneLine], rfl, rfl⟩
          · split at h
            · next nl =>
              cases h
              exact ⟨[], .lf, rest, by rw [nl]; rfl, by simp [OneLine], rfl, rfl⟩
            · cases h
        · next printable =>
          obtain ⟨token, e, tail, rfl, oneLine, rfl, rfl⟩ := ih h
          refine ⟨c :: token, e, tail, rfl, ?_, ?_, ?_⟩
          · exact List.forall_mem_cons.mpr ⟨Bool.eq_false_iff.mpr printable, oneLine⟩
          · simp only [List.length_cons]
            omega
          · simp only [List.length_cons, Cursor.mk.injEq, and_true]
            omega
  · rintro ⟨token, e, tail, rfl, oneLine, rfl, rfl⟩
    rw [getTokenToEol_append oneLine]
    cases e <;> rfl

/-- A header name goes up to the colon behind it. -/
theorem headerName_eq_ok
    : headerName ofs rest = .ok next
      ↔ ∃ name tail : Bytes,
          rest = name ++ 58 :: tail ∧ (∀ c ∈ name, tokenChar c = true)
          ∧ next = ⟨ofs + name.length, 58 :: tail⟩ := by
  constructor
  · intro h
    -- on the text; the first byte that is neither colon nor token refuses it
    induction rest generalizing ofs with
    | nil => cases h
    | cons c rest ih =>
        simp only [headerName] at h
        split at h
        · next colon =>
          cases h
          exact ⟨[], rest, by rw [colon]; rfl, by simp, by simp [colon]⟩
        · split at h
          · next token =>
            obtain ⟨name, tail, rfl, tokens, rfl⟩ := ih h
            refine ⟨c :: name, tail, rfl, List.forall_mem_cons.mpr ⟨token, tokens⟩, ?_⟩
            simp only [List.length_cons]
            rw [Nat.add_assoc, Nat.add_comm 1]
          · cases h
  · rintro ⟨name, tail, rfl, tokens, rfl⟩
    exact headerName_token tokens ofs tail

/-- Blanks are skipped up to the first byte that is none. -/
theorem skipBlanks_eq_ok
    : skipBlanks ofs rest = .ok next
      ↔ ∃ (blanks : Bytes) (c : UInt8) (tail : Bytes),
          rest = blanks ++ c :: tail ∧ (∀ b ∈ blanks, isBlank b = true) ∧ isBlank c = false
          ∧ next = ⟨ofs + blanks.length, c :: tail⟩ := by
  constructor
  · intro h
    -- on the text; at its end the parser asks for more
    induction rest generalizing ofs with
    | nil => cases h
    | cons c rest ih =>
        simp only [skipBlanks] at h
        split at h
        · next blank =>
          obtain ⟨blanks, d, tail, rfl, all, other, rfl⟩ := ih h
          refine ⟨c :: blanks, d, tail, rfl, List.forall_mem_cons.mpr ⟨blank, all⟩, other, ?_⟩
          simp only [List.length_cons]
          rw [Nat.add_assoc, Nat.add_comm 1]
        · next other =>
          cases h
          exact ⟨[], c, rest, rfl, by simp, Bool.eq_false_iff.mpr other, rfl⟩
  · rintro ⟨blanks, c, tail, rfl, all, other, rfl⟩
    -- on the blanks to be skipped
    induction blanks generalizing ofs with
    | nil =>
        rw [List.nil_append, skipBlanks, if_neg (by simp [other])]
        rfl
    | cons b blanks ih =>
        obtain ⟨here, later⟩ := List.forall_mem_cons.mp all
        rw [List.cons_append, skipBlanks, if_pos here, ih later]
        simp only [List.length_cons]
        rw [Nat.add_assoc, Nat.add_comm 1]

/-- The version takes eight bytes, and a ninth must be there. -/
theorem parseHttpVersion_eq_ok {minorVersion : Int}
    : parseHttpVersion ⟨ofs, rest⟩ = .ok (minorVersion, next)
      ↔ ∃ (minor : Fin 10) (c : UInt8) (tail : Bytes),
          rest = versionBytes minor ++ c :: tail ∧ minorVersion = (minor : Nat)
          ∧ next = ⟨ofs + 8, c :: tail⟩ := by
  constructor
  · intro h
    rw [parseHttpVersion.eq_def] at h
    split at h
    · next b0 b1 b2 b3 b4 b5 b6 digit c tail long =>
      split at h
      · next spelled =>
        obtain ⟨rfl, rfl, rfl, rfl, rfl, rfl, rfl⟩ := spelled
        -- seven bytes are compared, the eighth is the digit, one more has to be there
        simp only [parseInt] at h
        split at h
        · cases h
        · next range =>
          rw [not_or] at range
          have low : 48 ≤ digit.toNat := UInt8.le_iff_toNat_le.mp (UInt8.not_lt.mp range.1)
          have high : digit.toNat ≤ 57 := UInt8.le_iff_toNat_le.mp (UInt8.not_lt.mp range.2)
          cases h
          refine ⟨⟨digit.toNat - 48, by omega⟩, c, tail, ?_, ?_, rfl⟩
          · have same : UInt8.ofNat (48 + (digit.toNat - 48)) = digit := by
              rw [Nat.add_sub_cancel' low, UInt8.ofNat_toNat]
            change rest = [72, 84, 84, 80, 47, 49, 46, UInt8.ofNat (48 + (digit.toNat - 48))]
              ++ c :: tail
            rw [same]
            exact long
          · dsimp only
            omega
      · cases h
    · cases h
  · rintro ⟨minor, c, tail, rfl, rfl, rfl⟩
    simp only [versionBytes, List.cons_append, List.nil_append, parseHttpVersion, and_self,
      if_true]
    rw [parseInt_digit minor.isLt, Int.one_mul]

end Lexemes

section Values

/-- A blank is no control character. -/
theorem isControl_of_isBlank {c : UInt8} (blank : isBlank c = true) : isControl c = false := by
  rcases Bool.or_eq_true_iff.mp blank with space | tab
  · rw [of_decide_eq_true space]
    rfl
  · rw [of_decide_eq_true tab]
    rfl

/-- What is no control character ends no line. -/
theorem isLineEnd_of_isControl {c : UInt8} (printable : isControl c = false)
    : isLineEnd c = false := by
  by_contra ended
  rcases Bool.or_eq_true_iff.mp (Bool.not_eq_false _ ▸ ended) with cr | nl
  · rw [of_decide_eq_true cr] at printable
    cases printable
  · rw [of_decide_eq_true nl] at printable
    cases printable

/-- A token character ends no line. -/
theorem isLineEnd_of_tokenChar {c : UInt8} (token : tokenChar c = true)
    : isLineEnd c = false := by
  simp [isLineEnd, tokenChar_ne token (show tokenChar 13 = false by decide),
    tokenChar_ne token (show tokenChar 10 = false by decide)]

/-- A token character is no blank. -/
theorem isBlank_of_tokenChar {c : UInt8} (token : tokenChar c = true) : isBlank c = false := by
  simp [isBlank, tokenChar_ne token (show tokenChar 32 = false by decide),
    tokenChar_ne token (show tokenChar 9 = false by decide)]

/-- Blanks behind a value do not count. -/
theorem trimmedLength_append {value trail : Bytes}
    (ends : ∀ c ∈ value.getLast?, isBlank c = false) (blank : ∀ c ∈ trail, isBlank c = true)
    : trimmedLength (value ++ trail) = value.length := by
  have kept : value.reverse.dropWhile isBlank = value.reverse := by
    cases reversed : value.reverse with
    | nil => rfl
    | cons c rest =>
        have last : c ∈ value.getLast? := by
          rw [← List.head?_reverse, reversed]
          rfl
        rw [List.dropWhile_cons_of_neg (by simp [ends c last])]
  rw [trimmedLength, List.reverse_append,
    List.dropWhile_append_of_pos (fun c member => blank c (List.mem_reverse.mp member)), kept,
    List.length_reverse]

/-- Text without its blanks at the end. -/
theorem exists_trimmed (text : Bytes)
    : ∃ value trail : Bytes,
        text = value ++ trail
        ∧ (∀ c ∈ value.getLast?, isBlank c = false)
        ∧ ∀ c ∈ trail, isBlank c = true := by
  refine ⟨text.rdropWhile isBlank, text.rtakeWhile isBlank,
    List.rdropWhile_append_rtakeWhile.symm, ?_, fun c member => List.mem_rtakeWhile_imp member⟩
  intro c last
  by_cases empty : text.rdropWhile isBlank = []
  · rw [empty] at last
    cases last
  · rw [List.getLast?_eq_some_getLast empty] at last
    obtain rfl := Option.some.inj last
    exact Bool.eq_false_iff.mpr (List.rdropWhile_last_not isBlank text empty)

/-- A value starts without a blank when it does so before its trailing blanks. -/
theorem starts_of_append {value trail : Bytes}
    (starts : ∀ c ∈ (value ++ trail).head?, isBlank c = false)
    : ∀ c ∈ value.head?, isBlank c = false := by
  intro c member
  rcases value with _ | ⟨d, value⟩
  · cases member
  · exact starts c member

/-- A value that starts with no blank is empty only when nothing was trimmed. -/
theorem trail_nil_of_starts {value trail : Bytes}
    (starts : ∀ c ∈ (value ++ trail).head?, isBlank c = false)
    (blank : ∀ c ∈ trail, isBlank c = true) (empty : value = [])
    : trail = [] := by
  subst empty
  rcases trail with _ | ⟨c, trail⟩
  · rfl
  · have other := starts c rfl
    rw [blank c (List.mem_cons_self ..)] at other
    cases other

end Values

section Lines

variable {first : Bool} {buf next : Cursor} {h : PhrHeader}

/-- A header is its start and the text up to the end of the line. -/
theorem parseHeader_eq_ok
    : parseHeader first buf = .ok (h, next)
      ↔ ∃ (name : Slice) (ofs : Nat) (raw : Bytes) (e : LineEnd) (tail : Bytes),
          headerStart first buf = .ok (name, ⟨ofs, raw ++ (e.bytes ++ tail)⟩)
          ∧ OneLine raw
          ∧ h = ⟨name, ⟨some ofs, trimmedLength raw⟩⟩
          ∧ next = ⟨ofs + raw.length + e.bytes.length, tail⟩ := by
  constructor
  · intro parsed
    rw [parseHeader] at parsed
    obtain ⟨⟨name, ofs, rest⟩, started, parsed⟩ := ok_of_bind parsed
    obtain ⟨⟨stop, after⟩, line, parsed⟩ := ok_of_bind parsed
    obtain ⟨raw, e, tail, rfl, oneLine, rfl, rfl⟩ := getTokenToEol_eq_ok.mp line
    simp only [pure, Except.pure, Except.ok.injEq, Prod.mk.injEq, Nat.add_sub_cancel_left,
      List.take_left] at parsed
    exact ⟨name, ofs, raw, e, tail, started, oneLine, parsed.1.symm, parsed.2.symm⟩
  · rintro ⟨name, ofs, raw, e, tail, started, oneLine, rfl, rfl⟩
    have line : getTokenToEol ofs (raw ++ (e.bytes ++ tail))
        = .ok (ofs + raw.length, ⟨ofs + raw.length + e.bytes.length, tail⟩) :=
      getTokenToEol_eq_ok.mpr ⟨raw, e, tail, rfl, oneLine, rfl, rfl⟩
    simp only [parseHeader, started, line, bind, Except.bind, pure, Except.pure,
      Nat.add_sub_cancel_left, List.take_left]

/-- A line that starts with a blank has no name unless it is the first. -/
theorem headerStart_folded {ofs : Nat} {rest : Bytes} (notFirst : first = false)
    (blank : rest.head?.any isBlank = true)
    : headerStart first ⟨ofs, rest⟩ = .ok (⟨none, 0⟩, ⟨ofs, rest⟩) := by
  rw [headerStart, if_pos ⟨notFirst, blank⟩]

/-- Any other line has a name, a colon and blanks before its value. -/
theorem headerStart_named {ofs : Nat} {rest : Bytes}
    (named : ¬ (first = false ∧ rest.head?.any isBlank = true)) {name : Slice} {value : Cursor}
    : headerStart first ⟨ofs, rest⟩ = .ok (name, value)
      ↔ ∃ (label : HeaderName) (gap : Bytes) (c : UInt8) (tail : Bytes),
          rest = label.bytes ++ 58 :: (gap ++ c :: tail)
          ∧ (∀ b ∈ gap, isBlank b = true) ∧ isBlank c = false
          ∧ name = ⟨some ofs, label.bytes.length⟩
          ∧ value = ⟨ofs + label.bytes.length + 1 + gap.length, c :: tail⟩ := by
  rw [headerStart, if_neg named]
  constructor
  · intro started
    obtain ⟨colon, found, started⟩ := ok_of_bind started
    obtain ⟨label, behind, rfl, token, rfl⟩ := headerName_eq_ok.mp found
    split at started
    · cases started
    · next long =>
      obtain ⟨after, skipped, started⟩ := ok_of_bind started
      obtain ⟨gap, c, tail, rfl, blanks, other, rfl⟩ := skipBlanks_eq_ok.mp skipped
      cases started
      have nonempty : label ≠ [] := by
        rintro rfl
        exact long rfl
      refine ⟨⟨label, nonempty, token⟩, gap, c, tail, rfl, blanks, other, ?_, rfl⟩
      simp only [Nat.add_sub_cancel_left]
  · rintro ⟨label, gap, c, tail, rfl, blanks, other, rfl, rfl⟩
    have positive := List.length_pos_iff.mpr label.nonempty
    have skipped : skipBlanks (ofs + label.bytes.length + 1) (gap ++ c :: tail)
        = .ok ⟨ofs + label.bytes.length + 1 + gap.length, c :: tail⟩ :=
      skipBlanks_eq_ok.mpr ⟨gap, c, tail, rfl, blanks, other, rfl⟩
    simp only [headerName_token label.token, bind, Except.bind, List.tail_cons]
    rw [if_neg (by omega), skipped]
    simp only [pure, Except.pure, Nat.add_sub_cancel_left]

end Lines

end Phr

section HeaderLines

variable {first : Bool} {ofs : Nat}

namespace HeaderLine

/-- What follows the blanks of a line starts with none. -/
theorem behind_gap (line : HeaderLine) (tail : Bytes)
    : ∃ (c : UInt8) (rest : Bytes),
        line.value ++ line.trail ++ (line.ends.bytes ++ tail) = c :: rest
        ∧ isBlank c = false := by
  rcases shape : line.value with _ | ⟨c, value⟩
  · rw [line.trail_nil shape]
    cases line.ends
    · exact ⟨13, 10 :: tail, rfl, rfl⟩
    · exact ⟨10, tail, rfl, rfl⟩
  · exact ⟨c, _, rfl, line.value_starts c (by rw [shape]; rfl)⟩

/-- The content of a line is on one line, part by part. -/
theorem content_oneLine (line : HeaderLine) : OneLine line.content := by
  intro c member
  rcases List.mem_append.mp member with gap | behind
  · exact isControl_of_isBlank (line.gap_blank c gap)
  · rcases List.mem_append.mp behind with value | trail
    · exact line.oneLine c value
    · exact isControl_of_isBlank (line.trail_blank c trail)

/-- A line's whole content, trimmed, when it has no name. -/
theorem trimmedLength_content (line : HeaderLine)
    : trimmedLength line.content
      = if line.value = [] then 0 else line.gap.length + line.value.length := by
  split
  · next empty =>
    have blanks : ∀ c ∈ line.content, isBlank c = true := by
      rw [content, empty, line.trail_nil empty, List.append_nil, List.append_nil]
      exact line.gap_blank
    have nothing : ∀ c ∈ ([] : Bytes).getLast?, isBlank c = false := fun _ member => nomatch member
    exact trimmedLength_append nothing blanks
  · next some_value =>
    have ends : ∀ c ∈ (line.gap ++ line.value).getLast?, isBlank c = false := by
      rw [List.getLast?_append_of_ne_nil _ some_value]
      exact line.value_ends
    rw [content, ← List.append_assoc, trimmedLength_append ends line.trail_blank,
      List.length_append]

/-- A header line is parsed at its place, whatever follows it. -/
theorem parse (line : HeaderLine) (named : first = true → line.name ≠ none) (ofs : Nat)
    (tail : Bytes)
    : lineEnd? ⟨ofs, line.bytes ++ tail⟩ = .ok none
      ∧ parseHeader first ⟨ofs, line.bytes ++ tail⟩
        = .ok (line.place ofs, ⟨ofs + line.bytes.length, tail⟩) := by
  -- a folded line keeps its blanks in the value, a named line skips them
  rcases name : line.name with _ | label
  · have shape : line.bytes ++ tail = line.content ++ (line.ends.bytes ++ tail) := by
      simp [bytes, HeaderLine.label, name]
    have length : line.bytes.length = line.content.length + line.ends.bytes.length := by
      simp [bytes, HeaderLine.label, name]
    obtain ⟨b, gap, starts⟩ := List.exists_cons_of_ne_nil (line.folded_gap name)
    have blank : isBlank b = true := line.gap_blank b (by rw [starts]; exact List.mem_cons_self ..)
    have begins : line.bytes ++ tail
        = b :: (gap ++ (line.value ++ (line.trail ++ (line.ends.bytes ++ tail)))) := by
      rw [shape, content, starts]
      simp
    have notFirst : first = false := Bool.eq_false_iff.mpr fun isFirst => named isFirst name
    constructor
    · exact lineEnd?_eq_none.mpr
        ⟨b, _, begins, isLineEnd_of_isControl (isControl_of_isBlank blank)⟩
    · refine parseHeader_eq_ok.mpr ⟨⟨none, 0⟩, ofs, line.content, line.ends, tail, ?_,
        line.content_oneLine, ?_, ?_⟩
      · rw [headerStart_folded notFirst (by rw [begins]; simpa using blank), shape]
      · rw [place, name, line.trimmedLength_content]
      · rw [length, Nat.add_assoc]
  · obtain ⟨c, rest, behind, other⟩ := line.behind_gap tail
    have shape : line.bytes ++ tail = label.bytes ++ 58 :: (line.gap ++ c :: rest) := by
      simp only [bytes, HeaderLine.label, name, content, List.append_assoc] at behind ⊢
      rw [← behind]
      simp
    obtain ⟨d, name', starts⟩ := List.exists_cons_of_ne_nil label.nonempty
    have token : tokenChar d = true := label.token d (by rw [starts]; exact List.mem_cons_self ..)
    have notBlank : ¬ (first = false ∧ (line.bytes ++ tail).head?.any isBlank = true) := by
      rintro ⟨-, blank⟩
      rw [shape, starts, List.cons_append, List.head?_cons, Option.any_some,
        isBlank_of_tokenChar token] at blank
      cases blank
    constructor
    · exact lineEnd?_eq_none.mpr
        ⟨d, _, by rw [shape, starts]; rfl, isLineEnd_of_tokenChar token⟩
    · refine parseHeader_eq_ok.mpr ⟨⟨some ofs, label.bytes.length⟩,
        ofs + label.bytes.length + 1 + line.gap.length, line.value ++ line.trail, line.ends, tail,
        ?_, ?_, ?_, ?_⟩
      · rw [behind]
        exact (headerStart_named notBlank).mpr
          ⟨label, line.gap, c, rest, shape, line.gap_blank, other, rfl, rfl⟩
      · exact fun c member => line.content_oneLine c (List.mem_append_right _ member)
      · rw [place, name, trimmedLength_append line.value_ends line.trail_blank]
      · simp only [bytes, HeaderLine.label, name, content, List.length_append,
          List.length_singleton, Cursor.mk.injEq, and_true]
        omega

end HeaderLine

/-- Text that starts with a blank, taken apart like the content of a line without a name. -/
theorem exists_folded {raw : Bytes} (folded : raw.head?.any isBlank = true)
    : ∃ gap value trail : Bytes,
        raw = gap ++ (value ++ trail)
        ∧ gap ≠ []
        ∧ (∀ c ∈ gap, isBlank c = true)
        ∧ (∀ c ∈ value.head?, isBlank c = false)
        ∧ (∀ c ∈ value.getLast?, isBlank c = false)
        ∧ (∀ c ∈ trail, isBlank c = true)
        ∧ (value = [] → trail = []) := by
  obtain ⟨value, trail, behind, ends, blank⟩ := exists_trimmed (raw.dropWhile isBlank)
  have starts : ∀ c ∈ (value ++ trail).head?, isBlank c = false := by
    intro c member
    rw [← behind] at member
    have other := List.head?_dropWhile_not isBlank raw
    rw [member] at other
    simpa using other
  refine ⟨raw.takeWhile isBlank, value, trail, ?_, ?_, fun c => List.mem_takeWhile_imp, ?_, ends,
    blank, trail_nil_of_starts starts blank⟩
  · rw [← behind, List.takeWhile_append_dropWhile]
  · rcases raw with _ | ⟨c, raw⟩
    · cases folded
    · rw [List.takeWhile_cons_of_pos (by simpa using folded)]
      exact List.cons_ne_nil _ _
  · exact starts_of_append starts

/-- Whatever is parsed as a header is a header line. -/
theorem exists_headerLine {rest : Bytes} {next : Cursor} {h : PhrHeader}
    (parsed : parseHeader first ⟨ofs, rest⟩ = .ok (h, next))
    : ∃ (line : HeaderLine) (tail : Bytes),
        (first = true → line.name ≠ none)
        ∧ rest = line.bytes ++ tail
        ∧ h = line.place ofs
        ∧ next = ⟨ofs + line.bytes.length, tail⟩ := by
  obtain ⟨name, start, raw, e, tail, started, oneLine, rfl, rfl⟩ := parseHeader_eq_ok.mp parsed
  -- a line starting with a blank continues the value of the line before it and has no name
  by_cases folded : first = false ∧ rest.head?.any isBlank = true
  · rw [headerStart_folded folded.1 folded.2] at started
    cases started
    have starts : raw.head?.any isBlank = true := by
      rcases raw with _ | ⟨c, raw⟩
      · have ended := folded.2
        cases e <;> simp [LineEnd.bytes, isBlank] at ended
      · exact folded.2
    obtain ⟨gap, value, trail, rfl, nonempty, blanks, first_byte, last_byte, blank, none_left⟩ :=
      exists_folded starts
    let line : HeaderLine := {
      name := none
      gap := gap
      value := value
      trail := trail
      ends := e
      gap_blank := blanks
      folded_gap := fun _ => nonempty
      oneLine := fun c member => oneLine c (by simp [member])
      value_starts := first_byte
      value_ends := last_byte
      trail_blank := blank
      trail_nil := none_left }
    refine ⟨line, tail, ?_, ?_, ?_, ?_⟩
    · intro isFirst
      rw [folded.1] at isFirst
      cases isFirst
    · simp [line, HeaderLine.bytes, HeaderLine.label, HeaderLine.content]
    · exact congrArg (fun n => PhrHeader.mk ⟨none, 0⟩ ⟨some ofs, n⟩) line.trimmedLength_content
    · simp [line, HeaderLine.bytes, HeaderLine.label, HeaderLine.content, Nat.add_assoc]
  · obtain ⟨label, gap, c, behind, rfl, blanks, other, rfl, found⟩ :=
      (headerStart_named folded).mp started
    obtain ⟨rfl, same⟩ := Cursor.mk.inj found
    obtain ⟨value, trail, rfl, ends, blank⟩ := exists_trimmed raw
    -- the value does not start with a blank: the gap has taken all of them
    have starts : ∀ d ∈ (value ++ trail).head?, isBlank d = false := by
      intro d member
      rcases both : value ++ trail with _ | ⟨b, rest⟩
      · rw [both] at member
        cases member
      · rw [both] at same member
        cases member
        rw [(List.cons.inj same).1]
        exact other
    let line : HeaderLine := {
      name := some label
      gap := gap
      value := value
      trail := trail
      ends := e
      gap_blank := blanks
      folded_gap := fun absent => by cases absent
      oneLine := fun d member => oneLine d (List.mem_append_left _ member)
      value_starts := starts_of_append starts
      value_ends := ends
      trail_blank := blank
      trail_nil := trail_nil_of_starts starts blank }
    refine ⟨line, tail, fun _ => by simp [line], ?_, ?_, ?_⟩
    · rw [← same]
      simp [line, HeaderLine.bytes, HeaderLine.label, HeaderLine.content]
    · simp only [line, HeaderLine.place]
      rw [trimmedLength_append ends blank]
    · simp only [line, HeaderLine.bytes, HeaderLine.label, HeaderLine.content, List.length_append,
        List.length_singleton, Cursor.mk.injEq, and_true]
      omega

/-- Header lines up to the empty line, given room for them all. -/
theorem parseHeaders_eq_ok {left : Nat} {done : List PhrHeader} {rest : Bytes} {next : Cursor}
    {found : List PhrHeader}
    : parseHeaders left done ⟨ofs, rest⟩ = (.ok next, found)
      ↔ ∃ (lines : List HeaderLine) (final : LineEnd) (tail : Bytes),
          lines.length ≤ left
          ∧ (done = [] → ∀ line ∈ lines.head?, line.name ≠ none)
          ∧ rest = lines.flatMap HeaderLine.bytes ++ (final.bytes ++ tail)
          ∧ found = done ++ HeaderLine.places ofs lines
          ∧ next = ⟨ofs + (lines.flatMap HeaderLine.bytes).length + final.bytes.length, tail⟩ := by
  constructor
  · intro parsed
    -- on the number of headers there is still room for, as the C loop counts
    induction left generalizing ofs rest done with
    | zero =>
        rw [parseHeaders.eq_def] at parsed
        split at parsed
        · cases parsed
        · next ended =>
          cases parsed
          obtain ⟨final, tail, rfl, rfl⟩ := lineEnd?_eq_some.mp ended
          exact ⟨[], final, tail, Nat.le_refl 0, by simp, rfl, by simp [HeaderLine.places], rfl⟩
        · cases parsed
        · next _ full =>
          cases full
    | succ left ih =>
        rw [parseHeaders.eq_def] at parsed
        split at parsed
        · cases parsed
        · next ended =>
          cases parsed
          obtain ⟨final, tail, rfl, rfl⟩ := lineEnd?_eq_some.mp ended
          exact ⟨[], final, tail, Nat.zero_le _, by simp, rfl, by simp [HeaderLine.places], rfl⟩
        · next _ full =>
          cases full
        · next left' _ room =>
          obtain rfl := Nat.succ.inj room
          cases header : parseHeader done.isEmpty ⟨ofs, rest⟩ with
          | error ret =>
              rw [header, stage] at parsed
              cases parsed
          | ok value =>
              obtain ⟨h, after⟩ := value
              rw [header, stage_ok] at parsed
              obtain ⟨line, tail, named, rfl, rfl, rfl⟩ := exists_headerLine header
              -- the lines behind the first one come from the induction hypothesis
              obtain ⟨lines, final, behind, short, -, rfl, rfl, rfl⟩ := ih parsed
              refine ⟨line :: lines, final, behind, Nat.succ_le_succ short, ?_, ?_, ?_, ?_⟩
              · intro none_done first member
                cases member
                exact named (by rw [none_done]; rfl)
              · rw [List.flatMap_cons, List.append_assoc]
              · rw [HeaderLine.places, List.append_assoc]
                rfl
              · rw [List.flatMap_cons, List.length_append]
                simp only [Nat.add_assoc]
  · rintro ⟨lines, final, tail, short, named, rfl, rfl, rfl⟩
    -- on the lines to be read back; each one uses up a place of `left`
    induction lines generalizing ofs left done with
    | nil =>
        have ended : lineEnd? ⟨ofs, final.bytes ++ tail⟩
            = .ok (some ⟨ofs + final.bytes.length, tail⟩) :=
          lineEnd?_eq_some.mpr ⟨final, tail, rfl, rfl⟩
        rw [List.flatMap_nil, List.nil_append, parseHeaders.eq_def, ended]
        simp [HeaderLine.places]
    | cons line lines ih =>
        obtain _ | left := left
        · cases short
        · have isFirst : done.isEmpty = true → line.name ≠ none := by
            intro none_done
            exact named (List.isEmpty_iff.mp none_done) line rfl
          obtain ⟨notEnded, header⟩ := line.parse isFirst ofs
            (lines.flatMap HeaderLine.bytes ++ (final.bytes ++ tail))
          rw [List.flatMap_cons, List.append_assoc, parseHeaders.eq_def, notEnded, header]
          dsimp only
          rw [stage_ok]
          dsimp only
          rw [ih (Nat.le_of_succ_le_succ short) (by simp)]
          simp only [HeaderLine.places, List.append_assoc, List.cons_append, List.nil_append,
            List.length_append, Nat.add_assoc]

end HeaderLines

section Requests

variable {text : Bytes}

/-- An empty line before the request line is skipped, and nothing else is. -/
theorem exists_leading {buf : Cursor} {begun : Option Cursor}
    (ended : lineEnd? buf = .ok begun)
    : ∃ leading : Option LineEnd,
        buf.rest = (leading.map LineEnd.bytes).getD [] ++ (begun.getD buf).rest
        ∧ (begun.getD buf).ofs = buf.ofs + ((leading.map LineEnd.bytes).getD []).length := by
  rcases begun with _ | next
  · exact ⟨none, rfl, rfl⟩
  · obtain ⟨e, tail, same, rfl⟩ := lineEnd?_eq_some.mp ended
    exact ⟨some e, same, rfl⟩

/-- A word of the request line is what the parser took for a token that is not empty. -/
theorem exists_word {ofs : Nat} {rest : Bytes} {space : Cursor}
    (token : advanceToken ofs rest = .ok space) (long : space.ofs - ofs ≠ 0)
    : ∃ (word : Word) (tail : Bytes),
        rest = word.bytes ++ 32 :: tail
        ∧ space = ⟨ofs + word.bytes.length, 32 :: tail⟩ := by
  obtain ⟨bytes, tail, rfl, visible, rfl⟩ := advanceToken_eq_ok.mp token
  have nonempty : bytes ≠ [] := by
    rintro rfl
    exact long (by simp)
  exact ⟨⟨bytes, nonempty, visible⟩, tail, rfl, rfl⟩

/-- A parse that succeeds had each of its stages succeed. -/
theorem ok_of_stage {α β : Type} {result : Except Int α} {out found : β}
    {more : α → Except Int Cursor × β} {next : Cursor}
    (parsed : stage result out more = (.ok next, found))
    : ∃ value, result = .ok value ∧ more value = (.ok next, found) := by
  cases result with
  | error ret => cases parsed
  | ok value => exact ⟨value, rfl, parsed⟩

/-- Whatever the parser accepts starts with a head. -/
theorem exists_head {next : Cursor} {out : Parsed}
    (parsed : parseRequest ⟨0, text⟩ = (.ok next, out))
    : ∃ (head : RequestHead) (tail : Bytes),
        text = head.bytes ++ tail ∧ next = ⟨head.bytes.length, tail⟩ ∧ out = head.parsed := by
  simp only [parseRequest] at parsed
  obtain ⟨begun, begins, parsed⟩ := ok_of_stage parsed
  obtain ⟨leading, startsWith, startsAt⟩ := exists_leading begins
  generalize begun.getD ⟨0, text⟩ = start at parsed startsWith startsAt
  obtain ⟨ofs, rest⟩ := start
  dsimp only at startsWith startsAt
  rw [Nat.zero_add] at startsAt
  obtain ⟨methodSpace, method, parsed⟩ := ok_of_stage parsed
  obtain ⟨pathSpace, path, parsed⟩ := ok_of_stage parsed
  -- an empty method or path is refused before the version is looked at
  split at parsed
  · cases parsed
  · next long =>
    rw [not_or] at long
    obtain ⟨methodWord, behindMethod, rfl, rfl⟩ := exists_word method long.1
    obtain ⟨pathWord, behindPath, behind, rfl⟩ := exists_word path long.2
    obtain ⟨⟨minorVersion, afterVersion⟩, version, parsed⟩ := ok_of_stage parsed
    obtain ⟨minor, c, behindVersion, rfl, rfl, rfl⟩ := parseHttpVersion_eq_ok.mp version
    obtain ⟨lineBehind, ended, parsed⟩ := ok_of_stage parsed
    rcases lineBehind with _ | next'
    · cases parsed
    · obtain ⟨ends, behindLine, same, rfl⟩ := lineEnd?_eq_some.mp ended
      dsimp only at parsed
      -- the header loop is read through its own grammar from here
      generalize headers : parseHeaders HTTP_HEADERS_MAX [] _ = result at parsed
      obtain ⟨buf, found⟩ := result
      cases parsed
      obtain ⟨lines, final, tail, room, named, rfl, rfl, rfl⟩ := parseHeaders_eq_ok.mp headers
      let head : RequestHead := {
        leading := leading
        method := methodWord
        path := pathWord
        minor := minor
        ends := ends
        headers := lines
        final := final
        headers_le := room
        first_named := named rfl }
      refine ⟨head, tail, ?_, ?_, ?_⟩
      · simp only [List.tail_cons] at behind
        rw [startsWith, behind, same]
        simp [head, RequestHead.bytes, RequestHead.before, RequestHead.requestLine,
          RequestHead.headerLines]
      · simp only [head, RequestHead.bytes, RequestHead.before, RequestHead.requestLine,
          RequestHead.headerLines, versionBytes, startsAt, List.length_append, List.length_cons,
          List.length_nil, Cursor.mk.injEq, and_true]
        omega
      -- where the header lines begin, counted as the parser does and as the head does
      · have starts : ofs + methodWord.bytes.length + 1 + pathWord.bytes.length + 1 + 8
              + ends.bytes.length
            = head.before.length + head.requestLine.length := by
          simp only [head, RequestHead.before, RequestHead.requestLine, versionBytes, startsAt,
            List.length_append, List.length_cons, List.length_nil]
          omega
        dsimp only
        rw [List.nil_append, starts, Nat.add_sub_cancel_left, Nat.add_sub_cancel_left,
          startsAt]
        rfl

/-- A visible character ends no line. -/
theorem isLineEnd_of_isVisible {c : UInt8} (visible : isVisible c = true)
    : isLineEnd c = false := by
  simp only [isVisible, Bool.and_eq_true, decide_eq_true_eq] at visible
  have ne_of_low (d : UInt8) (low : d < 32) : c ≠ d :=
    (UInt8.ne_of_lt (UInt8.lt_trans low visible.1)).symm
  simp [isLineEnd, ne_of_low 13 (by decide), ne_of_low 10 (by decide)]

/-- The request line is found behind the empty line that may come before it. -/
theorem lineEnd?_before (leading : Option LineEnd) (word : Word) {tail rest : Bytes}
    (same : rest = (leading.map LineEnd.bytes).getD [] ++ (word.bytes ++ tail))
    : ∃ begun,
        lineEnd? ⟨0, rest⟩ = .ok begun
        ∧ begun.getD ⟨0, rest⟩
          = ⟨((leading.map LineEnd.bytes).getD []).length, word.bytes ++ tail⟩ := by
  rcases leading with _ | e
  · obtain ⟨c, behind, starts⟩ := List.exists_cons_of_ne_nil word.nonempty
    have visible := word.visible c (by rw [starts]; exact List.mem_cons_self ..)
    refine ⟨none, lineEnd?_eq_none.mpr ⟨c, behind ++ tail, ?_, isLineEnd_of_isVisible visible⟩, ?_⟩
    · rw [same, starts]
      rfl
    · rw [same]
      rfl
  · refine ⟨some ⟨e.bytes.length, word.bytes ++ tail⟩, ?_, rfl⟩
    exact lineEnd?_eq_some.mpr ⟨e, word.bytes ++ tail, same, by rw [Nat.zero_add]⟩

/-- Every head is accepted, and what follows it is left alone. -/
theorem RequestHead.parse (head : RequestHead) (tail : Bytes)
    : parseRequest ⟨0, head.bytes ++ tail⟩
      = (.ok ⟨head.bytes.length, tail⟩, head.parsed) := by
  let behindLine := head.headers.flatMap HeaderLine.bytes ++ (head.final.bytes ++ tail)
  -- the line end gives the byte behind the version that the parser wants to see
  obtain ⟨c, more, behindEnds⟩ : ∃ c more, head.ends.bytes ++ behindLine = c :: more := by
    cases head.ends
    · exact ⟨13, 10 :: behindLine, rfl⟩
    · exact ⟨10, behindLine, rfl⟩
  let behindPath := versionBytes head.minor ++ (head.ends.bytes ++ behindLine)
  obtain ⟨begun, begins, startsAt⟩ : ∃ begun, lineEnd? ⟨0, head.bytes ++ tail⟩ = .ok begun
      ∧ begun.getD ⟨0, head.bytes ++ tail⟩
        = ⟨head.before.length,
            head.method.bytes ++ 32 :: (head.path.bytes ++ 32 :: behindPath)⟩ :=
    lineEnd?_before head.leading head.method (by
      simp [bytes, before, requestLine, headerLines, behindPath, behindLine])
  have token (word : Word) (ofs : Nat) (behind : Bytes)
      : advanceToken ofs (word.bytes ++ 32 :: behind)
        = .ok ⟨ofs + word.bytes.length, 32 :: behind⟩ :=
    advanceToken_eq_ok.mpr ⟨word.bytes, behind, rfl, word.visible, rfl⟩
  have nonempty : ¬ (head.method.bytes.length = 0 ∨ head.path.bytes.length = 0) := by
    simp [head.method.nonempty, head.path.nonempty]
  have version (ofs : Nat)
      : parseHttpVersion ⟨ofs, versionBytes head.minor ++ (head.ends.bytes ++ behindLine)⟩
        = .ok ((head.minor : Nat), ⟨ofs + 8, c :: more⟩) :=
    parseHttpVersion_eq_ok.mpr
      ⟨head.minor, c, more, congrArg (versionBytes head.minor ++ ·) behindEnds, rfl, rfl⟩
  have ended (ofs : Nat)
      : lineEnd? ⟨ofs, c :: more⟩ = .ok (some ⟨ofs + head.ends.bytes.length, behindLine⟩) :=
    lineEnd?_eq_some.mpr ⟨head.ends, behindLine, behindEnds.symm, rfl⟩
  have headers (ofs : Nat)
      : parseHeaders HTTP_HEADERS_MAX [] ⟨ofs, behindLine⟩
        = (.ok ⟨ofs + (head.headers.flatMap HeaderLine.bytes).length + head.final.bytes.length,
            tail⟩, HeaderLine.places ofs head.headers) :=
    parseHeaders_eq_ok.mpr
      ⟨head.headers, head.final, tail, head.headers_le, fun _ => head.first_named, rfl, rfl, rfl⟩
  -- where the header lines begin, counted as the parser does and as the head does
  have starts : head.before.length + head.method.bytes.length + 1 + head.path.bytes.length + 1 + 8
      + head.ends.bytes.length = head.before.length + head.requestLine.length := by
    simp only [requestLine, versionBytes, List.length_append, List.length_cons, List.length_nil]
    omega
  have length : head.bytes.length = head.before.length + head.requestLine.length
      + (head.headers.flatMap HeaderLine.bytes).length + head.final.bytes.length := by
    simp only [bytes, headerLines, List.length_append]
    omega
  simp only [parseRequest, begins, startsAt, stage_ok, token, List.tail_cons,
    Nat.add_sub_cancel_left, nonempty, if_false, version, ended, headers, behindPath]
  rw [starts, length]
  rfl

end Requests

end PrismHTTP.Server
