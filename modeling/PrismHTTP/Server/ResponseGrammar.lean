import PrismHTTP.Server.HttpResponse
import PrismHTTP.Server.Picohttpparser

/-! Responses read back by the grammar they are meant for.
The printer puts reasons and headers into the head as they are, so a response reads back
exactly when nothing in them ends a line.
-/

namespace PrismHTTP.Server
open Phr MemoryBlock

/-- The bytes of a string the parser found. -/
def Slice.of (s : Slice) (text : Bytes) : Bytes := (text.drop (s.ofs.getD 0)).take s.len

def PhrHeader.of (h : PhrHeader) (text : Bytes) : HttpField := ⟨h.name.of text, h.val.of text⟩

/-- The written bytes are one well-formed response: a three-digit status, the server's headers
and the handler's, and the body right behind the empty line, as long as announced.
-/
structure WellFormed (res : HttpResponse) (written : Bytes) : Prop where
  threeDigits : 100 ≤ res.status.toNat ∧ res.status.toNat ≤ 999
  minorVersion : (phrParseResponse HTTP_HEADERS_MAX written 0).2.minorVersion = 1
  status : (phrParseResponse HTTP_HEADERS_MAX written 0).2.status = res.status.toNat
  headers : (phrParseResponse HTTP_HEADERS_MAX written 0).2.headers.map (·.of written)
    = ⟨literal "Server", literal "Prism"⟩
      :: ⟨literal "Content-Length", decimal res.bodyMem.filled.length⟩ :: res.headers
  parsed : 0 < (phrParseResponse HTTP_HEADERS_MAX written 0).1
  body : written.drop (phrParseResponse HTTP_HEADERS_MAX written 0).1.toNat
    = res.bodyMem.filled

/-- Text that stays on its line. -/
def OneLine (text : Bytes) : Prop := ∀ c ∈ text, isControl c = false

instance (text : Bytes) : Decidable (OneLine text) :=
  inferInstanceAs (Decidable (∀ c ∈ text, _))

/-- A header that reads back as it is. -/
structure HttpField.Readable (h : HttpField) : Prop where
  named : h.name ≠ []
  token : ∀ c ∈ h.name, tokenChar c = true
  oneLine : OneLine h.val
  blankFree : ∀ c ∈ h.val, isBlank c = false

section Decimal

/-- A decimal digit is printed as its character. -/
theorem digit_byte {d : Nat} (small : d < 10)
    : (Nat.digitChar d).toNat.toUInt8 = UInt8.ofNat (48 + d) := by
  rw [Nat.toNat_digitChar_of_lt_ten small, Nat.toUInt8_eq]
/-- A three-digit number is printed as its three digits. -/
theorem decimal_threeDigits {n : Nat} (low : 100 ≤ n) (high : n ≤ 999)
    : decimal n
      = [UInt8.ofNat (48 + n / 100), UInt8.ofNat (48 + n / 10 % 10),
          UInt8.ofNat (48 + n % 10)] := by
  have tens : n / 10 / 10 = n / 100 := by omega
  rw [decimal, Nat.toDigits_of_base_le (by decide) (by omega),
    Nat.toDigits_of_base_le (by decide) (by omega), tens,
    Nat.toDigits_of_lt_base (by omega)]
  simp only [List.map_append, List.map_cons, List.map_nil]
  rw [digit_byte (by omega), digit_byte (by omega), digit_byte (by omega)]
  rfl

/-- Digits, and nothing else. -/
theorem decimal_digits {n : Nat} {c : UInt8} (member : c ∈ decimal n)
    : 48 ≤ c.toNat ∧ c.toNat ≤ 57 := by
  obtain ⟨d, digit, rfl⟩ := List.mem_map.mp member
  have isDigit := Nat.isDigit_of_mem_toDigits (by decide) (by decide) digit
  have range : 48 ≤ d.toNat ∧ d.toNat ≤ 57 := by
    simpa [Char.isDigit, UInt32.le_iff_toNat_le] using isDigit
  simp
  omega

end Decimal

section Lines

/-- Text that stays on its line is passed over, by induction on the text. -/
theorem getTokenToEol_append {text : Bytes} (oneLine : OneLine text) (ofs : Nat) (tail : Bytes)
    : getTokenToEol ofs (text ++ tail) = getTokenToEol (ofs + text.length) tail := by
  induction text generalizing ofs with
  | nil => rfl
  | cons c text ih =>
      have printable : isControl c = false := oneLine c (List.mem_cons_self ..)
      have later := ih (fun d member => oneLine d (List.mem_cons_of_mem _ member)) (ofs + 1)
      rw [List.cons_append, getTokenToEol, if_neg (by simp [printable]), later,
        List.length_cons, Nat.add_assoc, Nat.add_comm 1]

/-- A token ends where its line does. -/
theorem getTokenToEol_oneLine {text : Bytes} (oneLine : OneLine text) (ofs : Nat) (rest : Bytes)
    : getTokenToEol ofs (text ++ 13 :: 10 :: rest)
      = .ok (ofs + text.length, ⟨ofs + text.length + 2, rest⟩) :=
  getTokenToEol_append oneLine ofs _

/-- A line feed inside ends the token early, and what was behind it is left to the headers. -/
theorem getTokenToEol_lineFeed {text : Bytes} (oneLine : OneLine text) (ofs : Nat)
    (rest : Bytes)
    : getTokenToEol ofs (text ++ 10 :: rest)
      = .ok (ofs + text.length, ⟨ofs + text.length + 1, rest⟩) :=
  getTokenToEol_append oneLine ofs _

/-- A token character differs from a byte that is none. -/
theorem tokenChar_ne {c d : UInt8} (token : tokenChar c = true) (other : tokenChar d = false)
    : c ≠ d := by
  rintro rfl
  rw [token] at other
  cases other

/-- A name of token characters is parsed up to its colon, by induction on the name. -/
theorem headerName_token {name : Bytes} (token : ∀ c ∈ name, tokenChar c = true) (ofs : Nat)
    (rest : Bytes)
    : headerName ofs (name ++ 58 :: rest) = .ok ⟨ofs + name.length, 58 :: rest⟩ := by
  induction name generalizing ofs with
  | nil => rfl
  | cons c name ih =>
      have here : tokenChar c = true := token c (List.mem_cons_self ..)
      have later := ih (fun d member => token d (List.mem_cons_of_mem _ member)) (ofs + 1)
      rw [List.cons_append, headerName, if_neg (tokenChar_ne here (by decide)), if_pos here,
        later, List.length_cons]
      simp only [Nat.add_assoc, Nat.add_comm 1]

/-- The blank behind the colon is skipped, and no more. -/
theorem skipBlanks_val {val : Bytes} (blankFree : ∀ c ∈ val, isBlank c = false) (ofs : Nat)
    (rest : Bytes)
    : skipBlanks ofs (32 :: (val ++ 13 :: rest)) = .ok ⟨ofs + 1, val ++ 13 :: rest⟩ := by
  rw [skipBlanks, if_pos (by decide)]
  cases val with
  | nil => rfl
  | cons c val =>
      rw [List.cons_append, skipBlanks,
        if_neg (by simp [blankFree c (List.mem_cons_self ..)])]

/-- A value without blanks is not trimmed: nothing is dropped from its end. -/
theorem trimmedLength_blankFree {val : Bytes} (blankFree : ∀ c ∈ val, isBlank c = false)
    : trimmedLength val = val.length := by
  have kept : val.reverse.dropWhile isBlank = val.reverse := by
    cases reversed : val.reverse with
    | nil => rfl
    | cons c rest =>
        have member : c ∈ val := by
          rw [← List.mem_reverse, reversed]
          exact List.mem_cons_self ..
        rw [List.dropWhile_cons, if_neg (by simp [blankFree c member])]
  rw [trimmedLength, kept, List.length_reverse]

/-- Where the parser finds a header whose line starts at `ofs`. -/
def HttpField.place (h : HttpField) (ofs : Nat) : PhrHeader :=
  ⟨⟨some ofs, h.name.length⟩, ⟨some (ofs + h.name.length + 2), h.val.length⟩⟩

/-- A header line is its name, a colon, a blank, its value and a line end. -/
theorem HttpField.line_eq (h : HttpField)
    : h.line = h.name ++ 58 :: 32 :: (h.val ++ [13, 10]) := by
  have colon : literal ": " = [58, 32] := by decide +kernel
  simp [HttpField.line, colon]

/-- A header line has four bytes besides its name and its value. -/
theorem HttpField.length_line (h : HttpField)
    : h.line.length = h.name.length + h.val.length + 4 := by
  rw [h.line_eq]
  simp
  omega

/-- A readable header is parsed at its place, whatever follows its line. -/
theorem HttpField.Readable.parse {h : HttpField} (readable : h.Readable) (first : Bool)
    (ofs : Nat) (rest : Bytes)
    : lineEnd? ⟨ofs, h.line ++ rest⟩ = .ok none
      ∧ parseHeader first ⟨ofs, h.line ++ rest⟩
        = .ok (h.place ofs, ⟨ofs + h.line.length, rest⟩) := by
  have shape : h.line ++ rest = h.name ++ 58 :: (32 :: (h.val ++ 13 :: 10 :: rest)) := by
    simp [h.line_eq]
  have length := h.length_line
  obtain ⟨c, name, begins⟩ := List.exists_cons_of_ne_nil readable.named
  have start : tokenChar c = true := readable.token c (begins ▸ List.mem_cons_self ..)
  rw [shape]
  constructor
  · rw [begins, List.cons_append, lineEnd?]
    dsimp only
    rw [if_neg (tokenChar_ne start (by decide)), if_neg (tokenChar_ne start (by decide))]
  · have positive : 0 < h.name.length := List.length_pos_iff.mpr readable.named
    -- the line starts with a name, so it does not go on with the header before it
    have newHeader : ¬ (first = false
        ∧ (h.name ++ 58 :: (32 :: (h.val ++ 13 :: 10 :: rest))).head?.any isBlank = true) := by
      rintro ⟨-, blank⟩
      rw [begins, List.cons_append, List.head?_cons, Option.any_some] at blank
      rcases Bool.or_eq_true_iff.mp blank with space | tab
      · exact tokenChar_ne start (by decide) (of_decide_eq_true space)
      · exact tokenChar_ne start (by decide) (of_decide_eq_true tab)
    have named : headerStart first ⟨ofs, h.name ++ 58 :: (32 :: (h.val ++ 13 :: 10 :: rest))⟩
        = .ok (⟨some ofs, h.name.length⟩,
            ⟨ofs + h.name.length + 2, h.val ++ 13 :: 10 :: rest⟩) := by
      rw [headerStart, if_neg newHeader, headerName_token readable.token]
      have some_name : ofs + h.name.length ≠ ofs := by omega
      change (if ofs + h.name.length = ofs then _ else _) = _
      rw [if_neg some_name, List.tail_cons, skipBlanks_val readable.blankFree]
      simp [bind, Except.bind, pure, Except.pure]
    have value := getTokenToEol_oneLine readable.oneLine (ofs + h.name.length + 2) rest
    have stop : ofs + h.name.length + 2 + h.val.length - (ofs + h.name.length + 2)
        = h.val.length := by omega
    have next : ofs + h.name.length + 2 + h.val.length + 2 = ofs + h.line.length := by omega
    simp only [parseHeader, named, value, bind, Except.bind, pure, Except.pure, stop, next,
      List.take_left, trimmedLength_blankFree readable.blankFree, HttpField.place]

/-- The places of headers printed one behind the other. -/
def places (ofs : Nat) : List HttpField → List PhrHeader
  | [] => []
  | h :: fields => h.place ofs :: places (ofs + h.line.length) fields

/-- Readable headers are parsed at their places, up to and with the empty line; by induction
on the headers.
-/
theorem parseHeaders_fields {fields : List HttpField} (readable : ∀ h ∈ fields, h.Readable)
    {left : Nat} (room : fields.length ≤ left) (done : List PhrHeader) (ofs : Nat) (rest : Bytes)
    : parseHeaders left done ⟨ofs, fields.flatMap HttpField.line ++ 13 :: 10 :: rest⟩
      = (.ok ⟨ofs + (fields.flatMap HttpField.line).length + 2, rest⟩,
          done ++ places ofs fields) := by
  induction fields generalizing left done ofs with
  | nil =>
      rw [parseHeaders.eq_def]
      simp [lineEnd?, expectChar, Except.map, places]
  | cons h fields ih =>
      -- every header takes one of the places left
      obtain ⟨left, rfl⟩ : ∃ n, left = n + 1 := ⟨left - 1, by simp at room; omega⟩
      have here := readable h (List.mem_cons_self ..)
      obtain ⟨notEnd, parsed⟩ := here.parse done.isEmpty ofs
        (fields.flatMap HttpField.line ++ 13 :: 10 :: rest)
      have later := ih (fun f member => readable f (List.mem_cons_of_mem _ member))
        (Nat.le_of_succ_le_succ room) (done ++ [h.place ofs]) (ofs + h.line.length)
      rw [List.flatMap_cons, List.append_assoc, parseHeaders.eq_def, notEnd]
      dsimp only
      rw [parsed, stage_ok]
      dsimp only
      rw [later, List.length_append, places]
      simp only [Nat.add_assoc, List.append_assoc, List.singleton_append]

/-- At its place a header reads as it was printed. -/
theorem HttpField.place_of (h : HttpField) (before rest : Bytes)
    : (h.place before.length).of (before ++ (h.line ++ rest)) = h := by
  have name : before ++ (h.line ++ rest)
      = before ++ (h.name ++ (58 :: 32 :: (h.val ++ 13 :: 10 :: rest))) := by
    simp [h.line_eq]
  have val : before ++ (h.line ++ rest)
      = (before ++ h.name ++ [58, 32]) ++ (h.val ++ 13 :: 10 :: rest) := by
    simp [h.line_eq]
  have valOfs : before.length + h.name.length + 2 = (before ++ h.name ++ [58, 32]).length := by
    simp
    omega
  apply HttpField.ext
  · change ((before ++ (h.line ++ rest)).drop before.length).take h.name.length = h.name
    rw [name, List.drop_left, List.take_left]
  · change ((before ++ (h.line ++ rest)).drop (before.length + h.name.length + 2)).take
      h.val.length = h.val
    rw [val, valOfs, List.drop_left, List.take_left]

/-- At their places headers read as they were printed, by induction on the headers. -/
theorem places_of (fields : List HttpField) (before rest : Bytes)
    : (places before.length fields).map
        (·.of (before ++ (fields.flatMap HttpField.line ++ rest)))
      = fields := by
  induction fields generalizing before with
  | nil => rfl
  | cons h fields ih =>
      have later := ih (before ++ h.line)
      rw [List.length_append] at later
      rw [places, List.map_cons, List.flatMap_cons, List.append_assoc, h.place_of]
      rw [List.append_assoc] at later
      rw [later]

end Lines

section Status

/-- One digit of the status. -/
theorem parseInt_digit {d : Nat} (small : d < 10) (mul : Int) (ofs : Nat) (rest : Bytes)
    : parseInt mul ⟨ofs, UInt8.ofNat (48 + d) :: rest⟩ = .ok (mul * d, ⟨ofs + 1, rest⟩) := by
  have byte : (UInt8.ofNat (48 + d)).toNat = 48 + d := by
    rw [UInt8.toNat_ofNat']
    omega
  have range : ¬ (UInt8.ofNat (48 + d) < 48 ∨ 57 < UInt8.ofNat (48 + d)) := by
    simp only [UInt8.lt_iff_toNat_lt, byte]
    change ¬ (48 + d < 48 ∨ 57 < 48 + d)
    omega
  have digit : (((48 + d : Nat) : Int) - 48) = d := by omega
  simp only [parseInt, if_neg range, byte, digit]

/-- Behind a status line's version and status the reason is a token up to its line's end. -/
theorem parseResponse_status {n : Nat} (low : 100 ≤ n) (high : n ≤ 999) (maxHeaders : Nat)
    (tail : Bytes)
    : parseResponse maxHeaders
        ⟨0, literal "HTTP/1.1 " ++ decimal n ++ literal " " ++ tail⟩
      = stage (getTokenToEol 13 tail) ⟨1, n, ⟨none, 0⟩, []⟩ fun (stop, next) =>
          let result := parseHeaders maxHeaders [] next
          (result.1, ⟨1, n, ⟨some 13, stop - 13⟩, result.2⟩) := by
  have version : literal "HTTP/1.1 " = [72, 84, 84, 80, 47, 49, 46, 49, 32] := by
    decide +kernel
  have space : literal " " = [32] := by decide +kernel
  have sum : 100 * ((n / 100 : Nat) : Int) + 10 * ((n / 10 % 10 : Nat) : Int)
      + 1 * ((n % 10 : Nat) : Int) = n := by omega
  rw [decimal_threeDigits low high, version, space]
  simp only [List.cons_append, List.nil_append, parseResponse, parseHttpVersion, and_self,
    if_true]
  have minor (rest : Bytes) : parseInt 1 ⟨0 + 7, 49 :: rest⟩ = .ok (1, ⟨8, rest⟩) :=
    @parseInt_digit 1 (by decide) 1 7 rest
  have blank (ofs : Nat) (rest : Bytes) : expectChar 32 ⟨ofs, 32 :: rest⟩ = .ok ⟨ofs + 1, rest⟩ := by
    simp only [expectChar, if_true]
  have long (a b c d : UInt8) : ¬ (a :: b :: c :: d :: tail).length < 4 := by
    simp only [List.length_cons]
    omega
  -- minor version, blank, three digits and blank, a stage each
  rw [minor, stage_ok, blank, stage_ok]
  dsimp only
  rw [if_neg (long _ _ _ _), parseInt_digit (by omega), stage_ok, parseInt_digit (by omega), stage_ok,
    parseInt_digit (by omega), stage_ok, blank, stage_ok]
  dsimp only
  rw [sum]

end Status

section Responses

variable {res : HttpResponse}

/-- The Server header can be read. -/
theorem serverField_readable : serverField.Readable :=
  ⟨by decide +kernel, by decide +kernel, by decide +kernel, by decide +kernel⟩

/-- The announced length is readable because digits are. -/
theorem lengthField_readable (res : HttpResponse) : res.lengthField.Readable := by
  have digits {c : UInt8} (member : c ∈ res.lengthField.val) : 48 ≤ c.toNat ∧ c.toNat ≤ 57 :=
    decimal_digits member
  have differs {c d : UInt8} (member : c ∈ res.lengthField.val) (low : d.toNat < 48) : c ≠ d := by
    rintro rfl
    have := (digits member).1
    omega
  have name : literal "Content-Length" ≠ []
      ∧ ∀ c ∈ literal "Content-Length", tokenChar c = true := by decide +kernel
  refine ⟨name.1, name.2, ?_, ?_⟩
  · intro c member
    have range := digits member
    have notControl : ¬ c < 32 := by
      rw [UInt8.lt_iff_toNat_lt]
      change ¬ c.toNat < 32
      omega
    have notDelete : c ≠ 127 := by
      rintro rfl
      exact absurd range.2 (by decide)
    simp [isControl, notControl, notDelete]
  · intro c member
    simp [isBlank, differs member (show (32 : UInt8).toNat < 48 by decide),
      differs member (show (9 : UInt8).toNat < 48 by decide)]

/-- The headers written are readable when those of the response are: the server adds readable
ones.
-/
theorem HttpResponse.fields_readable (readable : ∀ h ∈ res.headers, h.Readable)
    : ∀ h ∈ res.fields, h.Readable := by
  intro h member
  rcases List.mem_cons.mp member with rfl | member
  · exact serverField_readable
  · rcases List.mem_cons.mp member with rfl | member
    · exact lengthField_readable res
    · exact readable h member

/-- Where the headers start: behind a status line with a three-digit status. -/
theorem HttpResponse.length_statusLine (low : 100 ≤ res.status.toNat)
    (high : res.status.toNat ≤ 999)
    : res.statusLine.length = 13 + res.reason.length + 2 := by
  have version : (literal "HTTP/1.1 ").length = 9 := by decide +kernel
  have space : (literal " ").length = 1 := by decide +kernel
  simp only [statusLine, List.length_append, version, space, decimal_threeDigits low high,
    List.length_cons, List.length_nil]

/-- What the parser makes of a response with a three-digit status and a reason that stays on
its line.
-/
theorem HttpResponse.parse (low : 100 ≤ res.status.toNat) (high : res.status.toNat ≤ 999)
    (oneLine : OneLine res.reason) (readable : ∀ h ∈ res.headers, h.Readable)
    (room : res.headers.length + 2 ≤ HTTP_HEADERS_MAX) (body : Bytes)
    : parseResponse HTTP_HEADERS_MAX ⟨0, res.head ++ [13, 10] ++ body⟩
      = (.ok ⟨res.head.length + 2, body⟩,
          ⟨1, res.status.toNat, ⟨some 13, res.reason.length⟩,
            places res.statusLine.length res.fields⟩) := by
  have shape : res.head ++ [13, 10] ++ body
      = literal "HTTP/1.1 " ++ decimal res.status.toNat ++ literal " "
        ++ (res.reason ++ 13 :: 10 :: (res.fields.flatMap HttpField.line ++ 13 :: 10 :: body)) := by
    simp [head, statusLine, List.append_assoc]
  have headers := parseHeaders_fields (res.fields_readable readable) room []
    (13 + res.reason.length + 2) body
  rw [shape, parseResponse_status low high, getTokenToEol_oneLine oneLine, stage_ok]
  dsimp only
  rw [headers, List.nil_append, Nat.add_sub_cancel_left, head, List.length_append,
    res.length_statusLine low high]

/-- A response of readable parts is well formed as it is written. -/
theorem HttpResponse.Fresh.wellFormed (fresh : res.Fresh) (small : res.mem.size ≤ 2 ^ 31)
    (low : 100 ≤ res.status.toNat) (high : res.status.toNat ≤ 999)
    (oneLine : OneLine res.reason) (readable : ∀ h ∈ res.headers, h.Readable)
    (room : res.headers.length + 2 ≤ HTTP_HEADERS_MAX)
    : WellFormed res (res.head ++ [13, 10] ++ res.bodyMem.filled) := by
  have parsed := res.parse low high oneLine readable room res.bodyMem.filled
  have fits := fresh.fits
  -- the parser returns the length of the head as an `int`
  have offset : (Int32.ofNat (res.head.length + 2)).toInt = ((res.head.length + 2 : Nat) : Int) :=
    Int32.toInt_ofNat_of_lt (by omega)
  have result : phrParseResponse HTTP_HEADERS_MAX (res.head ++ [13, 10] ++ res.bodyMem.filled) 0
      = (((res.head.length + 2 : Nat) : Int),
          ⟨1, res.status.toNat, ⟨some 13, res.reason.length⟩,
            places res.statusLine.length res.fields⟩) := by
    simp only [phrParseResponse, phrParse, if_true, parsed, offset]
  have lines : res.head ++ [13, 10] ++ res.bodyMem.filled
      = res.statusLine ++ (res.fields.flatMap HttpField.line ++ ([13, 10] ++ res.bodyMem.filled)) := by
    simp [head, List.append_assoc]
  refine ⟨⟨low, high⟩, ?_, ?_, ?_, ?_, ?_⟩
  · rw [result]
  · rw [result]
  · rw [result, lines]
    dsimp only
    rw [places_of, fields, lengthField, Membuf.used, Membuf.length_filled]
    rfl
  · rw [result]
    dsimp only
    omega
  · rw [result]
    have length : (res.head ++ [13, 10]).length = res.head.length + 2 := by simp
    dsimp only
    rw [Int.toNat_natCast, ← length, List.drop_left]

/-- A reason that ends its line makes the empty line come before any header. -/
theorem not_wellFormed_of_lineFeed {text : Bytes} (oneLine : OneLine text)
    (ends : res.reason = text ++ [10]) (body : Bytes)
    : ¬ WellFormed res (res.head ++ [13, 10] ++ body) := by
  intro formed
  obtain ⟨low, high⟩ := formed.threeDigits
  have shape : res.head ++ [13, 10] ++ body
      = literal "HTTP/1.1 " ++ decimal res.status.toNat ++ literal " "
        ++ (text ++ 10 :: (13 :: 10 :: (res.fields.flatMap HttpField.line ++ 13 :: 10 :: body))) := by
    simp [HttpResponse.head, HttpResponse.statusLine, ends, List.append_assoc]
  -- behind the reason the next line is empty, so no header is read
  have none_left : parseHeaders HTTP_HEADERS_MAX []
      ⟨13 + text.length + 1, 13 :: 10 :: (res.fields.flatMap HttpField.line ++ 13 :: 10 :: body)⟩
      = (.ok ⟨13 + text.length + 3, res.fields.flatMap HttpField.line ++ 13 :: 10 :: body⟩, []) := by
    rw [parseHeaders.eq_def]
    simp [lineEnd?, expectChar, Except.map]
  have headers := formed.headers
  rw [shape] at headers
  simp only [phrParseResponse, phrParse, if_true] at headers
  rw [parseResponse_status low high, getTokenToEol_lineFeed oneLine, stage_ok] at headers
  dsimp only at headers
  rw [none_left] at headers
  cases headers

end Responses

end PrismHTTP.Server
