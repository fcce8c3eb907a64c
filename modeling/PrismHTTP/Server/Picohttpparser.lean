import PrismHTTP.Server.HttpRequest

/-! The vendored parser of request and response headers.
A cursor is the parser's `buf`: its offset in the text, and the bytes from there to
`buf_end`. An error is -1 for malformed text and -2 for text that ends early; the output
parameters set before the error keep their values.
-/

namespace PrismHTTP.Server

namespace Phr

structure Cursor where
  ofs : Nat
  rest : Bytes

/-- Go on from a stage that succeeded; otherwise stop with its error and the outputs so far. -/
def stage {α β : Type} (result : Except Int α) (out : β)
    (next : α → Except Int Cursor × β)
    : Except Int Cursor × β :=
  match result with
  | .error ret => (.error ret, out)
  | .ok value => next value

/-- A stage that succeeds goes on to the next. -/
@[simp] theorem stage_ok {α β : Type} (value : α) (out : β)
    (next : α → Except Int Cursor × β)
    : stage (.ok value) out next = next value := rfl

/-- `EXPECT_CHAR` -/
def expectChar (ch : UInt8) (buf : Cursor) : Except Int Cursor :=
  match buf.rest with
  | [] => .error (-2)
  | c :: rest => if c = ch then .ok ⟨buf.ofs + 1, rest⟩ else .error (-1)

/-- The line end that comes next, if one does. -/
def lineEnd? (buf : Cursor) : Except Int (Option Cursor) :=
  match buf.rest with
  | [] => .error (-2)
  | c :: rest =>
      if c = 13 then (expectChar 10 ⟨buf.ofs + 1, rest⟩).map some
      else if c = 10 then .ok (some ⟨buf.ofs + 1, rest⟩)
      else .ok none

/-- `ADVANCE_TOKEN`, up to the space behind the token. -/
def advanceToken (ofs : Nat) : Bytes → Except Int Cursor
  | [] => .error (-2)
  | c :: rest =>
      if c = 32 then .ok ⟨ofs, c :: rest⟩
      else if c < 32 ∨ c = 127 then .error (-1)
      else advanceToken (ofs + 1) rest

def isControl (c : UInt8) : Bool := (c < 32 && c ≠ 9) || c = 127

/-- `get_token_to_eol`: where the token ends, and the text behind its line. -/
def getTokenToEol (ofs : Nat) : Bytes → Except Int (Nat × Cursor)
  | [] => .error (-2)
  | c :: rest =>
      if isControl c then
        if c = 13 then (expectChar 10 ⟨ofs + 1, rest⟩).map (ofs, ·)
        else if c = 10 then .ok (ofs, ⟨ofs + 1, rest⟩)
        else .error (-1)
      else
        getTokenToEol (ofs + 1) rest

/-- `is_complete`, from the byte it starts at: whether an empty line comes. -/
def isComplete (retCnt : Nat) : Bytes → Except Int Unit
  | [] => .error (-2)
  | c :: rest =>
      if c = 13 then
        match rest with
        | [] => .error (-2)
        | d :: rest =>
            if d ≠ 10 then .error (-1)
            else if retCnt + 1 = 2 then .ok ()
            else isComplete (retCnt + 1) rest
      else if c = 10 then
        if retCnt + 1 = 2 then .ok () else isComplete (retCnt + 1) rest
      else
        isComplete 0 rest

/-- `PARSE_INT` -/
def parseInt (mul : Int) (buf : Cursor) : Except Int (Int × Cursor) :=
  match buf.rest with
  | [] => .error (-1)
  | c :: rest =>
      if c < 48 ∨ 57 < c then .error (-1)
      else .ok (mul * (c.toNat - 48 : Int), ⟨buf.ofs + 1, rest⟩)

/-- `parse_http_version`, which wants a byte behind the version, too. -/
def parseHttpVersion (buf : Cursor) : Except Int (Int × Cursor) :=
  match buf.rest with
  | h :: t :: t' :: p :: slash :: one :: dot :: minor :: next :: more =>
      if h = 72 ∧ t = 84 ∧ t' = 84 ∧ p = 80 ∧ slash = 47 ∧ one = 49 ∧ dot = 46 then
        parseInt 1 ⟨buf.ofs + 7, minor :: next :: more⟩
      else
        .error (-1)
  | _ => .error (-2)

/-- `token_char_map`: letters, digits and "!#$%&'*+-.^_`|~". -/
def tokenChar (c : UInt8) : Bool :=
  (48 ≤ c && c ≤ 57) || (65 ≤ c && c ≤ 90) || (97 ≤ c && c ≤ 122)
    || c = 33 || c = 35 || c = 36 || c = 37 || c = 38 || c = 39 || c = 42 || c = 43
    || c = 45 || c = 46 || c = 94 || c = 95 || c = 96 || c = 124 || c = 126

/-- The header name, up to the colon behind it. -/
def headerName (ofs : Nat) : Bytes → Except Int Cursor
  | [] => .error (-2)
  | c :: rest =>
      if c = 58 then .ok ⟨ofs, c :: rest⟩
      else if tokenChar c then headerName (ofs + 1) rest
      else .error (-1)

def isBlank (c : UInt8) : Bool := c = 32 || c = 9

def skipBlanks (ofs : Nat) : Bytes → Except Int Cursor
  | [] => .error (-2)
  | c :: rest => if isBlank c then skipBlanks (ofs + 1) rest else .ok ⟨ofs, c :: rest⟩

/-- The length of a value without the blanks at its end. -/
def trimmedLength (token : Bytes) : Nat := (token.reverse.dropWhile isBlank).length

/-- The name and where the value starts; a line that starts with a blank goes on with the
header before it and has no name.
-/
def headerStart (first : Bool) (buf : Cursor) : Except Int (Slice × Cursor) :=
  if first = false ∧ buf.rest.head?.any isBlank then
    .ok (⟨none, 0⟩, buf)
  else do
    let colon ← headerName buf.ofs buf.rest
    if colon.ofs = buf.ofs then
      .error (-1)
    else
      let value ← skipBlanks (colon.ofs + 1) colon.rest.tail
      return (⟨some buf.ofs, colon.ofs - buf.ofs⟩, value)

def parseHeader (first : Bool) (buf : Cursor) : Except Int (PhrHeader × Cursor) := do
  let (name, value) ← headerStart first buf
  let (stop, next) ← getTokenToEol value.ofs value.rest
  let token := value.rest.take (stop - value.ofs)
  return (⟨name, ⟨some value.ofs, trimmedLength token⟩⟩, next)

/-- `parse_headers`, with room for `left` more headers behind those done. -/
def parseHeaders (left : Nat) (done : List PhrHeader) (buf : Cursor)
    : Except Int Cursor × List PhrHeader :=
  match lineEnd? buf, left with
  | .error ret, _ => (.error ret, done)
  | .ok (some next), _ => (.ok next, done)
  | .ok none, 0 => (.error (-1), done)
  | .ok none, left + 1 =>
      stage (parseHeader done.isEmpty buf) done fun (header, next) =>
        parseHeaders left (done ++ [header]) next

/-- `parse_request` -/
def parseRequest (buf : Cursor) : Except Int Cursor × Parsed :=
  let out : Parsed := ⟨⟨none, 0⟩, ⟨none, 0⟩, -1, []⟩
  stage (lineEnd? buf) out fun begun =>
    let method := begun.getD buf
    stage (advanceToken method.ofs method.rest) out fun space =>
      let out := { out with method := ⟨some method.ofs, space.ofs - method.ofs⟩ }
      let path : Cursor := ⟨space.ofs + 1, space.rest.tail⟩
      stage (advanceToken path.ofs path.rest) out fun space =>
        let out := { out with path := ⟨some path.ofs, space.ofs - path.ofs⟩ }
        if out.method.len = 0 ∨ out.path.len = 0 then
          (.error (-1), out)
        else
          stage (parseHttpVersion ⟨space.ofs + 1, space.rest.tail⟩) out
            fun (minorVersion, next) =>
              let out := { out with minorVersion := minorVersion }
              stage (lineEnd? next) out fun
                | none => (.error (-1), out)
                | some next =>
                    let result := parseHeaders HTTP_HEADERS_MAX [] next
                    (result.1, { out with headers := result.2 })

/-- The output parameters of `phr_parse_response`. -/
structure ParsedResponse where
  minorVersion : Int
  status : Int
  msg : Slice
  headers : List PhrHeader
  deriving DecidableEq

/-- `parse_response` -/
def parseResponse (maxHeaders : Nat) (buf : Cursor) : Except Int Cursor × ParsedResponse :=
  let out : ParsedResponse := ⟨-1, 0, ⟨none, 0⟩, []⟩
  stage (parseHttpVersion buf) out fun (minorVersion, next) =>
    let out := { out with minorVersion := minorVersion }
    stage (expectChar 32 next) out fun next =>
      if next.rest.length < 4 then
        (.error (-2), out)
      else
        stage (parseInt 100 next) out fun (hundreds, next) =>
          let out := { out with status := hundreds }
          stage (parseInt 10 next) out fun (tens, next) =>
            let out := { out with status := out.status + tens }
            stage (parseInt 1 next) out fun (ones, next) =>
              let out := { out with status := out.status + ones }
              stage (expectChar 32 next) out fun msg =>
                stage (getTokenToEol msg.ofs msg.rest) out fun (stop, next) =>
                  let out := { out with msg := ⟨some msg.ofs, stop - msg.ofs⟩ }
                  let result := parseHeaders maxHeaders [] next
                  (result.1, { out with headers := result.2 })

/-- What the caller gets: the number of bytes parsed, or the error. When some of the text was
seen before, it is first checked whether it is complete now.
-/
def phrParse {β : Type} (parse : Cursor → Except Int Cursor × β) (initial : β)
    (text : Bytes) (lastLen : Nat)
    : Int × β :=
  match if lastLen = 0 then .ok () else isComplete 0 (text.drop (lastLen - 3)) with
  | .error ret => (ret, initial)
  | .ok () =>
      let result := parse ⟨0, text⟩
      match result.1 with
      | .error ret => (ret, result.2)
      | .ok buf => ((Int32.ofNat buf.ofs).toInt, result.2)

end Phr

def phrParseRequest : PhrParseRequest :=
  Phr.phrParse Phr.parseRequest ⟨⟨none, 0⟩, ⟨none, 0⟩, -1, []⟩

def phrParseResponse (maxHeaders : Nat) : Bytes → Nat → Int × Phr.ParsedResponse :=
  Phr.phrParse (Phr.parseResponse maxHeaders) ⟨-1, 0, ⟨none, 0⟩, []⟩

end PrismHTTP.Server
