import PrismHTTP.Server.HttpRequest

/-! The HTTP response and how it is written.
The head is printed line by line into a buffer of its own, the body is written behind it as
the handler left it. Reasons and headers are printed as they are.
-/

namespace PrismHTTP.Server
open MemoryBlock

/-- The characters of a C string literal. -/
def literal (text : String) : Bytes := text.toList.map fun c => c.toNat.toUInt8

/-- What the conversions `%u` and `%lu` print. -/
def decimal (n : Nat) : Bytes := (Nat.toDigits 10 n).map fun c => c.toNat.toUInt8

/-- A header as the handler gives it: the bytes at its two pointers. -/
@[ext]
structure HttpField where
  name : Bytes
  val : Bytes
  deriving DecidableEq

/-- Where `handoff_data` points: into the application's table, or at its next server. -/
inductive HandoffData where
  | entry (index : Nat)
  | nextServer
  deriving DecidableEq

/-- `struct http_response`, with its first `nheaders` headers. -/
structure HttpResponse where
  mem : Membuf
  bodyMem : Membuf
  status : UInt32
  reason : Bytes
  headers : List HttpField
  handoffData : Option HandoffData

/-- The sizes `http_response_init` gives the two buffers. -/
def responseHeadSize : Nat := 4096

def responseBodySize : Nat := 5000000

/-- `handoff_data` is not initialised; nothing reads it before it is set. -/
def httpResponseInit (head body : Block) : HttpResponse where
  mem := .init head responseHeadSize
  bodyMem := .init body responseBodySize
  status := 0
  reason := literal "Uninitialized"
  headers := []
  handoffData := none

def httpResponseReset (res : HttpResponse) : HttpResponse where
  mem := res.mem.reset
  bodyMem := res.bodyMem.reset
  status := 0
  reason := literal "Uninitialized"
  headers := []
  handoffData := res.handoffData

/-- `none` is the error of a response whose header table is full. -/
def httpResponseAddHeader (res : HttpResponse) (name val : Bytes) : Option HttpResponse :=
  if res.headers.length = HTTP_HEADERS_MAX then none
  else some { res with headers := res.headers ++ [⟨name, val⟩] }

/-- `snprintf` to `cur`, the assertion that something was printed and all of it fitted, and
`membuf_consume`. The NUL behind the text is overwritten or never read.
-/
def Membuf.print (buf : Membuf) (text : Bytes) : Option Membuf :=
  if 0 < text.length ∧ text.length < buf.avail then (buf.receive text).consume text.length
  else none

/-- `"HTTP/1.1 %u %s\r\n"` -/
def HttpResponse.statusLine (res : HttpResponse) : Bytes :=
  literal "HTTP/1.1 " ++ decimal res.status.toNat ++ literal " " ++ res.reason ++ [13, 10]

/-- `"%.*s: %.*s\r\n"` -/
def HttpField.line (h : HttpField) : Bytes := h.name ++ literal ": " ++ h.val ++ [13, 10]

def serverField : HttpField := ⟨literal "Server", literal "Prism"⟩

def HttpResponse.lengthField (res : HttpResponse) : HttpField :=
  ⟨literal "Content-Length", decimal res.bodyMem.used⟩

/-- `phttp_send_http_res`: the bytes given to `uv_write`; `none` is a failed assertion. -/
def phttpSendHttpRes (res : HttpResponse) (continueRes : Bool) : Option Bytes := do
  let mem ←
    if continueRes then
      res.mem.print res.statusLine
    else do
      let mem ← res.mem.print (res.statusLine ++ serverField.line)
      let mem ← mem.print res.lengthField.line
      res.headers.foldlM (fun mem h => mem.print h.line) mem
  if 2 < mem.avail then
    let mem ← (mem.receive [13, 10]).consume 2
    return mem.filled ++ if res.bodyMem.used ≠ 0 then res.bodyMem.filled else []
  else
    none

/-! ## The bytes written -/

section Printing

variable {buf : Membuf} {text : Bytes}

/-- Text that is not empty and fits is appended to what the buffer holds. -/
theorem Membuf.print_fits (some_text : text ≠ []) (fits : text.length < buf.avail)
    : ∃ after, buf.print text = some after
      ∧ after.filled = buf.filled ++ text
      ∧ after.avail = buf.avail - text.length := by
  obtain ⟨after, did, filled, cur, -, size, -⟩ :=
    @Membuf.consume_receive buf text (Nat.le_of_lt fits)
  refine ⟨after, ?_, filled, ?_⟩
  · rw [Membuf.print, if_pos ⟨List.length_pos_iff.mpr some_text, fits⟩, did]
  · rw [Membuf.avail, Membuf.avail, cur, size]
    omega

/-- A header line is not empty. -/
theorem HttpField.line_ne_nil (h : HttpField) : h.line ≠ [] := by simp [HttpField.line]

/-- The added headers are printed one line each, by induction on the headers. -/
theorem foldlM_print (fields : List HttpField) (buf : Membuf)
    (fits : (fields.flatMap HttpField.line).length < buf.avail)
    : ∃ after, fields.foldlM (fun mem h => mem.print h.line) buf = some after
      ∧ after.filled = buf.filled ++ fields.flatMap HttpField.line
      ∧ after.avail = buf.avail - (fields.flatMap HttpField.line).length := by
  induction fields generalizing buf with
  | nil => exact ⟨buf, rfl, by simp, by simp⟩
  | cons h fields ih =>
      simp only [List.flatMap_cons, List.length_append] at fits
      -- a line that fits leaves room for the others, which is what the induction asks for
      obtain ⟨next, printed, filled, avail⟩ :=
        @Membuf.print_fits buf h.line h.line_ne_nil (by omega)
      obtain ⟨after, done, all, left⟩ := ih next (by omega)
      refine ⟨after, ?_, ?_, ?_⟩
      · rw [List.foldlM_cons, printed]
        exact done
      · rw [all, filled, List.flatMap_cons, List.append_assoc]
      · rw [left, avail, List.flatMap_cons, List.length_append]
        omega

end Printing

namespace HttpResponse

/-- All the headers, those of the server first. -/
def fields (res : HttpResponse) : List HttpField :=
  serverField :: res.lengthField :: res.headers

/-- The head up to the empty line. -/
def head (res : HttpResponse) : Bytes := res.statusLine ++ res.fields.flatMap HttpField.line

/-- A response that nothing was printed to yet and whose head fits its buffer. -/
structure Fresh (res : HttpResponse) : Prop where
  empty : res.mem.cur = 0
  fits : res.head.length + 2 < res.mem.size

/-- What is written is the head, the empty line and the body. -/
theorem Fresh.send {res : HttpResponse} (fresh : res.Fresh)
    : phttpSendHttpRes res false = some (res.head ++ [13, 10] ++ res.bodyMem.filled) := by
  obtain ⟨empty, fits⟩ := fresh
  have nothing : res.mem.filled = [] := by rw [Membuf.filled, empty, load_zero]
  have avail : res.mem.avail = res.mem.size := by rw [Membuf.avail, empty, Nat.sub_zero]
  simp only [head, fields, List.flatMap_cons, List.length_append] at fits
  obtain ⟨first, printed, filled, left⟩ := @Membuf.print_fits res.mem
    (res.statusLine ++ serverField.line) (by simp [HttpField.line])
    (by rw [List.length_append]; omega)
  rw [List.length_append] at left
  obtain ⟨second, printed', filled', left'⟩ := @Membuf.print_fits first res.lengthField.line
    res.lengthField.line_ne_nil (by omega)
  obtain ⟨third, printed'', filled'', left''⟩ := foldlM_print res.headers second (by omega)
  obtain ⟨last, consumed, ended, -⟩ :=
    @Membuf.consume_receive third [13, 10] (show 2 ≤ third.avail by omega)
  have body : (if res.bodyMem.used ≠ 0 then res.bodyMem.filled else []) = res.bodyMem.filled := by
    split
    · rfl
    · next zero =>
        have none_used : res.bodyMem.cur = 0 := Classical.byContradiction zero
        rw [Membuf.filled, none_used, load_zero]
  have room : 2 < third.avail := by omega
  simp only [phttpSendHttpRes, Bool.false_eq_true, if_false, printed, printed', printed'',
    Option.bind_eq_bind, Option.bind_some, if_pos room]
  rw [show (third.receive [13, 10]).consume 2 = some last from consumed, Option.bind_some, body]
  simp [ended, filled'', filled', filled, nothing, head, fields, List.append_assoc]

end HttpResponse

end PrismHTTP.Server
