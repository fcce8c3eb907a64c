import PrismHTTP.Library.Transition
import PrismHTTP.Server.HttpServer

/-! Receiving a request is not independent of its segmentation.
The body's address is right only when the header block came in one read, and it stays right
only as long as the buffer is not moved. A request without a body is always delivered.
-/

namespace PrismHTTP.Server
open MemoryBlock Transition HttpClientSocket

variable {phr : PhrParseRequest}

/-- A well-formed request: a header block, and as many bytes of body as it declares. -/
structure Request (phr : PhrParseRequest) where
  block : HeaderBlock phr
  body : Bytes
  body_length : body.length = block.declaredLen.toNat

namespace Request

def bytes (request : Request phr) : Bytes := request.block.bytes ++ request.body

/-- The request's strings, as they were sent. -/
def seen (request : Request phr) : Seen where
  method := some (request.block.parsed.method.read request.block.bytes)
  path := some (request.block.parsed.path.read request.block.bytes)
  minorVersion := request.block.parsed.minorVersion
  headers := request.block.parsed.headers.map fun h =>
    (some (h.name.read request.block.bytes), some (h.val.read request.block.bytes))
  body := some request.body

/-- A request is as long as its header block and its body. -/
theorem length_bytes (request : Request phr)
    : request.bytes.length = request.block.bytes.length + request.body.length :=
  List.length_append

end Request

/-- The handler was called once, when all had arrived, with everything that was sent. -/
structure Delivered (request : Request phr) (hcs : HttpClientSocket) : Prop where
  isOpen : hcs.closed = false
  alive : hcs.crashed = false
  called : hcs.calls = [⟨request.seen, request.bytes.length⟩]

/-- The header block is not complete yet. -/
structure Parsing (request : Request phr) (hcs : HttpClientSocket) : Prop where
  isOpen : hcs.closed = false
  alive : hcs.crashed = false
  state : hcs.httpState = .parsingHeader
  uncalled : hcs.calls = []
  filled : hcs.req.mem.filled = hcs.received
  part : hcs.received.length < request.block.bytes.length
  body : hcs.req.body = 0
  bodyLen : hcs.req.bodyLen = 0

/-- The body is being counted from the address `start`. The strings were stored when the
buffer was at `home`.
-/
structure Counting (request : Request phr) (home start : UInt64) (hcs : HttpClientSocket)
    : Prop where
  isOpen : hcs.closed = false
  alive : hcs.crashed = false
  state : hcs.httpState = .receivingBody
  uncalled : hcs.calls = []
  filled : hcs.req.mem.filled = hcs.received
  begun : request.block.bytes <+: hcs.received
  minorVersion : hcs.req.minorVersion = request.block.parsed.minorVersion
  method : hcs.req.method = request.block.parsed.method.at home
  path : hcs.req.path = request.block.parsed.path.at home
  headers :
    hcs.req.headers
      = request.block.parsed.headers.map fun h => ⟨h.name.at home, h.val.at home⟩
  body : hcs.req.body = start
  bodyLen : hcs.req.bodyLen = request.block.declaredLen

/-- The request can no longer be delivered. -/
inductive Lost (request : Request phr) (hcs : HttpClientSocket) : Prop
  | closed (h : hcs.closed = true)
  | crashed (h : hcs.crashed = true)
  | early (call : Call) (member : call ∈ hcs.calls) (h : call.received < request.bytes.length)
  | garbled (call : Call) (member : call ∈ hcs.calls) (h : call.seen ≠ request.seen)
  | uncalled (all : hcs.received = request.bytes) (h : hcs.calls = [])

/-- A lost request is not delivered, by cases on how it was lost. -/
theorem Lost.not_delivered {request : Request phr} {hcs : HttpClientSocket}
    (lost : Lost request hcs)
    : ¬ Delivered request hcs := by
  rintro ⟨isOpen, alive, called⟩
  cases lost with
  | closed h => exact Bool.noConfusion (h.symm.trans isOpen)
  | crashed h => exact Bool.noConfusion (h.symm.trans alive)
  | early call member h =>
      rw [called, List.mem_singleton] at member
      rw [member] at h
      exact Nat.lt_irrefl _ h
  | garbled call member h =>
      rw [called, List.mem_singleton] at member
      exact h (by rw [member])
  | uncalled _ h => simp [called] at h

section OneRead

/-- The connection with the new bytes in its buffer, before anything is made of them. -/
def HttpClientSocket.extend (hcs : HttpClientSocket) (mem : Membuf) (data : Bytes)
    : HttpClientSocket :=
  { hcs with
    req := { hcs.req with mem := mem }
    received := hcs.received ++ data }

/-- A read on an open connection puts the bytes behind those before and goes by the state. -/
theorem read?_open {request : Bytes} {hcs after : HttpClientSocket} {read : Read}
    (isOpen : hcs.closed = false) (alive : hcs.crashed = false)
    (h : hcs.read? phr request read = some after)
    : hcs.received ++ read.data <+: request ∧ read.data ≠ []
      ∧ ∃ mem : Membuf, mem.filled = hcs.req.mem.filled ++ read.data
        ∧ mem.prev = hcs.req.mem.cur ∧ mem.size < 2 ^ 63
        ∧ after = match hcs.httpState with
          | .parsingHeader => parseHeader phr (hcs.extend mem read.data)
          | .receivingBody => receiveBody (hcs.extend mem read.data) := by
  simp only [HttpClientSocket.read?] at h
  split at h
  case isFalse => cases h
  case isTrue guard =>
    rw [isOpen, alive, if_neg (by decide)] at h
    split at h
    case isFalse => cases h
    case isTrue room =>
      obtain ⟨fits, small⟩ := room
      obtain ⟨nonempty, ordered⟩ := guard
      have positive := List.length_pos_iff.mpr nonempty
      obtain ⟨mem, consumed, filled, -, prev, size, -⟩ := Membuf.consume_receive fits
      refine ⟨ordered, nonempty, mem, ?_, ?_, size ▸ small, ?_⟩
      · simpa [phttpOnAlloc] using filled
      · simpa [phttpOnAlloc] using prev
      · obtain rfl := Option.some.inj h
        rw [phttpOnRead, if_neg (by omega), if_neg (by omega), Int.toNat_natCast]
        simp only [arrive, consumed]
        rfl

/-- Handler calls are only ever added. -/
theorem calls_callHandler (hcs : HttpClientSocket)
    : hcs.calls <+: hcs.callHandler.calls :=
  List.prefix_append _ _

/-- Receiving a body only adds calls, by cases on the count. -/
theorem calls_receiveBody (hcs : HttpClientSocket)
    : hcs.calls <+: (receiveBody hcs).calls := by
  unfold receiveBody
  repeat' split
  · exact calls_callHandler _
  · exact List.prefix_rfl
  · exact List.prefix_rfl

/-- Parsing a header only adds calls, by cases on the answer and on the body. -/
theorem calls_parseHeader (hcs : HttpClientSocket)
    : hcs.calls <+: (parseHeader phr hcs).calls := by
  simp only [parseHeader]
  repeat' split
  · exact List.prefix_rfl
  · exact List.prefix_rfl
  · exact calls_callHandler { hcs with req := (httpParseRequest phr hcs.req).2 }
  · exact List.prefix_rfl.trans
      (calls_receiveBody { hcs with req := _, httpState := .receivingBody })

/-- A read brings some of the next bytes of the request. -/
theorem read?_ordered {request : Bytes} {hcs after : HttpClientSocket} {read : Read}
    (h : hcs.read? phr request read = some after)
    : read.data ≠ [] ∧ hcs.received ++ read.data <+: request := by
  simp only [HttpClientSocket.read?] at h
  split at h
  case isTrue guard => exact guard
  case isFalse => cases h

/-- A read on a closed or crashed connection changes nothing but what was received. -/
theorem read?_gone {request : Bytes} {hcs after : HttpClientSocket} {read : Read}
    (gone : hcs.closed = true ∨ hcs.crashed = true)
    (h : hcs.read? phr request read = some after)
    : after = { hcs with received := hcs.received ++ read.data } := by
  simp only [HttpClientSocket.read?] at h
  split at h
  case isFalse => cases h
  case isTrue =>
    rw [if_pos (by simpa using gone)] at h
    exact (Option.some.inj h).symm

/-- A read only adds calls, by cases on the state. -/
theorem read?_calls {request : Bytes} {hcs after : HttpClientSocket} {read : Read}
    (h : hcs.read? phr request read = some after)
    : hcs.calls <+: after.calls := by
  by_cases gone : hcs.closed = true ∨ hcs.crashed = true
  · obtain rfl := read?_gone gone h
    exact List.prefix_rfl
  · obtain ⟨isOpen, alive⟩ : hcs.closed = false ∧ hcs.crashed = false := by simpa using gone
    obtain ⟨-, -, mem, -, -, -, rfl⟩ := read?_open isOpen alive h
    cases hcs.httpState with
    | parsingHeader => exact calls_parseHeader (hcs.extend mem read.data)
    | receivingBody => exact calls_receiveBody (hcs.extend mem read.data)

/-- No later read brings a lost request back. -/
theorem Lost.read? {request : Request phr} {hcs after : HttpClientSocket} {read : Read}
    (lost : Lost request hcs) (h : hcs.read? phr request.bytes read = some after)
    : Lost request after := by
  have grown := (read?_calls h).subset
  cases lost with
  | closed gone => exact .closed (by rw [read?_gone (.inl gone) h]; exact gone)
  | crashed gone => exact .crashed (by rw [read?_gone (.inr gone) h]; exact gone)
  | early call member short => exact .early call (grown member) short
  | garbled call member wrong => exact .garbled call (grown member) wrong
  | uncalled all _ =>
      obtain ⟨nonempty, ordered⟩ := read?_ordered h
      have longer := ordered.length_le
      rw [all, List.length_append] at longer
      exact absurd (List.length_eq_zero_iff.mp (by omega)) nonempty

end OneRead

section Seeing

variable {request : Request phr} {req : HttpRequest}

/-- Strings stored at the buffer's present address are read as they were sent. -/
theorem seen_eq {rest : Bytes} (filled : req.mem.filled = request.block.bytes ++ rest)
    (minorVersion : req.minorVersion = request.block.parsed.minorVersion)
    (method : req.method = request.block.parsed.method.at req.mem.base)
    (path : req.path = request.block.parsed.path.at req.mem.base)
    (headers : req.headers
      = request.block.parsed.headers.map fun h =>
        ⟨h.name.at req.mem.base, h.val.at req.mem.base⟩)
    (body : req.mem.text ⟨req.body, req.bodyLen.toNat⟩ = some request.body)
    : req.seen = request.seen := by
  have lines : req.seen.headers = request.seen.headers := by
    simp only [HttpRequest.seen, Request.seen, headers, List.map_map]
    apply List.map_congr_left
    intro h member
    simp only [Function.comp_apply]
    obtain ⟨name, val⟩ := mem_slices member
    rw [text_at request.block filled name, text_at request.block filled val]
  have first : req.mem.text req.method
      = some (request.block.parsed.method.read request.block.bytes) := by
    rw [method]
    exact text_at request.block filled (List.mem_cons_self ..)
  have second : req.mem.text req.path
      = some (request.block.parsed.path.read request.block.bytes) := by
    rw [path]
    exact text_at request.block filled (List.mem_cons_of_mem _ (List.mem_cons_self ..))
  simp only [HttpRequest.seen, Request.seen, Seen.mk.injEq] at lines ⊢
  exact ⟨first, second, minorVersion, lines, body⟩

/-- The body is read from behind the header block. -/
theorem text_body (filled : req.mem.filled = request.bytes)
    (body : req.body = req.mem.base + .ofNat request.block.bytes.length)
    (bodyLen : req.bodyLen = request.block.declaredLen)
    : req.mem.text ⟨req.body, req.bodyLen.toNat⟩ = some request.body := by
  have short := request.block.short
  have lengths := congrArg List.length filled
  have extent := req.mem.cur_le_size
  rw [Membuf.length_filled, Request.length_bytes] at lengths
  simp only [Membuf.text, body, bodyLen, ← request.body_length,
    offset_at req.mem (show request.block.bytes.length < 2 ^ 64 by omega)]
  split
  · next empty => rw [List.length_eq_zero_iff.mp empty]
  · rw [if_pos (by omega)]
    have behind := congrArg (List.drop request.block.bytes.length) filled
    rw [Request.bytes, List.drop_left, Membuf.filled, drop_load _ (by omega), Nat.zero_add,
      lengths, Nat.add_sub_cancel_left] at behind
    rw [behind]

end Seeing

/-- The buffer is where `home` says, or at least nothing shows while the body is incomplete:
the distance counted from the old address is short of the body's length.
-/
def OnCourse (request : Request phr) (home : UInt64) (hcs : HttpClientSocket) : Prop :=
  if hcs.received.length < request.bytes.length then
    (hcs.req.mem.base - home) + .ofNat (hcs.received.length - request.block.bytes.length)
      < request.block.declaredLen
  else
    hcs.req.mem.base = home

section CountingBody

variable {request : Request phr} {home start : UInt64} {hcs : HttpClientSocket}

/-- While the body is counted, the header block has come in. -/
theorem Counting.received_le (counting : Counting request home start hcs)
    : request.block.bytes.length ≤ hcs.received.length :=
  counting.begun.length_le

/-- While the body is counted, the buffer holds all that was received. -/
theorem Counting.cur (counting : Counting request home start hcs)
    : hcs.req.mem.cur = hcs.received.length := by
  rw [← counting.filled, Membuf.length_filled]

/-- What is counted behind `start`, when the header block ends `start - home` bytes in. -/
theorem Counting.bodyReceived (counting : Counting request home start hcs)
    : bodyReceived hcs.req
      = (hcs.req.mem.base - home) - (start - home - .ofNat request.block.bytes.length)
        + .ofNat (hcs.received.length - request.block.bytes.length) := by
  have whole : UInt64.ofNat hcs.received.length
      = UInt64.ofNat request.block.bytes.length
        + UInt64.ofNat (hcs.received.length - request.block.bytes.length) := by
    rw [← UInt64.ofNat_add, Nat.add_sub_cancel' counting.received_le]
  rw [HttpClientSocket.bodyReceived, counting.cur, counting.body, whole]
  grind

/-- The body is as long as the header block declares. -/
theorem declaredLen_eq (request : Request phr)
    : UInt64.ofNat request.body.length = request.block.declaredLen := by
  rw [request.body_length, UInt64.ofNat_toNat]

/-- A body that is counted as complete is passed to the handler. -/
theorem receiveBody_equal (h : HttpClientSocket.bodyReceived hcs.req = hcs.req.bodyLen)
    : receiveBody hcs = { hcs with httpState := .parsingHeader }.callHandler :=
  if_pos h

/-- A body that is counted as too long closes the connection. -/
theorem receiveBody_above (h : hcs.req.bodyLen < HttpClientSocket.bodyReceived hcs.req)
    : receiveBody hcs = { hcs with closed := true } := by
  rw [receiveBody, if_neg (UInt64.ne_of_lt h).symm, if_pos h]

/-- A body that is counted as incomplete is waited for. -/
theorem receiveBody_below (h : HttpClientSocket.bodyReceived hcs.req < hcs.req.bodyLen)
    : receiveBody hcs = hcs := by
  rw [receiveBody, if_neg (UInt64.ne_of_lt h), if_neg (UInt64.lt_asymm h)]

/-- A call of the handler before the last byte cannot be taken back. -/
theorem early_lost (part : hcs.received.length < request.bytes.length)
    : Lost request { hcs with httpState := .parsingHeader }.callHandler := by
  refine .early ⟨hcs.req.seen, hcs.received.length⟩ ?_ part
  exact List.mem_append_right _ (List.mem_singleton_self _)

/-- With every byte received and no call made, the connection waits for bytes that will not
come, or was closed.
-/
theorem Counting.stuck_lost (counting : Counting request home start hcs)
    (all : hcs.received = request.bytes)
    (apart : HttpClientSocket.bodyReceived hcs.req ≠ request.block.declaredLen)
    : Lost request (receiveBody hcs) := by
  rw [← counting.bodyLen] at apart
  rcases UInt64.lt_or_lt_of_ne apart with below | above
  · rw [receiveBody_below below]
    exact .uncalled all counting.uncalled
  · rw [receiveBody_above above]
    exact .closed rfl

/-- Counting from the true start, the body is complete when it is counted so, unless the
buffer moved.
-/
theorem receiveBody_aligned
    (counting : Counting request home (home + .ofNat request.block.bytes.length) hcs)
    (ordered : hcs.received <+: request.bytes)
    : hcs.received.length < request.bytes.length ∧ OnCourse request home hcs
        ∧ receiveBody hcs = hcs
      ∨ hcs.received = request.bytes ∧ OnCourse request home hcs
        ∧ Delivered request (receiveBody hcs)
      ∨ ¬ OnCourse request home hcs ∧ Lost request (receiveBody hcs) := by
  have gap := counting.bodyReceived
  have shift : home + UInt64.ofNat request.block.bytes.length - home
      - UInt64.ofNat request.block.bytes.length = 0 := by grind
  rw [shift, UInt64.sub_zero] at gap
  unfold OnCourse
  by_cases part : hcs.received.length < request.bytes.length
  · rw [if_pos part, ← gap, ← counting.bodyLen]
    -- bytes are still to come: a count that is not below the length is wrong
    by_cases equal : HttpClientSocket.bodyReceived hcs.req = hcs.req.bodyLen
    · refine .inr (.inr ⟨?_, ?_⟩)
      · rw [equal]
        exact UInt64.lt_irrefl _
      · rw [receiveBody_equal equal]
        exact early_lost part
    · rcases UInt64.lt_or_lt_of_ne equal with below | above
      · exact .inl ⟨part, below, receiveBody_below below⟩
      · refine .inr (.inr ⟨UInt64.lt_asymm above, ?_⟩)
        rw [receiveBody_above above]
        exact .closed rfl
  · have all := ordered.eq_of_length_le (Nat.le_of_not_lt part)
    have body : hcs.received.length - request.block.bytes.length = request.body.length := by
      rw [all, Request.length_bytes, Nat.add_sub_cancel_left]
    rw [if_neg part]
    rw [body, declaredLen_eq] at gap
    -- all bytes are there: the count is right just when the buffer has not moved
    by_cases still : hcs.req.mem.base = home
    · refine .inr (.inl ⟨all, still, ?_⟩)
      subst still
      have equal : HttpClientSocket.bodyReceived hcs.req = hcs.req.bodyLen := by
        rw [gap, counting.bodyLen]
        grind
      have seen : hcs.req.seen = request.seen :=
        seen_eq (all ▸ counting.filled) counting.minorVersion counting.method counting.path
          counting.headers (text_body (all ▸ counting.filled) counting.body counting.bodyLen)
      rw [receiveBody_equal equal]
      refine ⟨counting.isOpen, counting.alive, ?_⟩
      simp [callHandler, counting.uncalled, seen, all]
    · refine .inr (.inr ⟨still, counting.stuck_lost all ?_⟩)
      rw [gap]
      intro same
      exact still (by grind)

/-- A pointer stored `shift` bytes too low reads other bytes than the method's, or none. -/
theorem text_method_shifted {buf : Membuf} {rest : Bytes} {shift : Nat}
    (block : HeaderBlock phr) (filled : buf.filled = block.bytes ++ rest)
    (size : buf.size < 2 ^ 63) (some_shift : 0 < shift) (small : shift < 2 ^ 32)
    : buf.text (block.parsed.method.at (buf.base - .ofNat shift))
      ≠ some (block.parsed.method.read block.bytes) := by
  have inside := block.inside _ (List.mem_cons_self ..) _ block.method
  have positive := block.method_pos
  have short := block.short
  intro same
  simp only [Membuf.text, Slice.at, block.method, Slice.read, Membuf.offset] at same
  rw [if_neg (by omega)] at same
  by_cases before : block.methodOfs < shift
  · -- The pointer is below the block, so its offset is near 2 ^ 64.
    have apart : UInt64.ofNat shift
        = UInt64.ofNat block.methodOfs + UInt64.ofNat (shift - block.methodOfs) := by
      rw [← UInt64.ofNat_add, Nat.add_sub_cancel' (Nat.le_of_lt before)]
    have below : buf.base - UInt64.ofNat shift + UInt64.ofNat block.methodOfs - buf.base
        = 0 - UInt64.ofNat (shift - block.methodOfs) := by
      rw [apart]
      grind
    have far : (0 - UInt64.ofNat (shift - block.methodOfs)).toNat
        = 2 ^ 64 - (shift - block.methodOfs) := by
      rw [UInt64.toNat_sub, UInt64.toNat_ofNat', UInt64.toNat_zero]
      omega
    rw [below, far, if_neg (by omega)] at same
    cases same
  · have apart : UInt64.ofNat block.methodOfs
        = UInt64.ofNat shift + UInt64.ofNat (block.methodOfs - shift) := by
      rw [← UInt64.ofNat_add, Nat.add_sub_cancel' (Nat.le_of_not_lt before)]
    have lower : buf.base - UInt64.ofNat shift + UInt64.ofNat block.methodOfs - buf.base
        = UInt64.ofNat (block.methodOfs - shift) := by
      rw [apart]
      grind
    have near : (UInt64.ofNat (block.methodOfs - shift)).toNat = block.methodOfs - shift := by
      rw [UInt64.toNat_ofNat']
      omega
    have used := length_le_cur block filled
    have extent := buf.cur_le_size
    rw [lower, near, if_pos (by omega), load_block block filled (by omega)] at same
    -- The two runs differ in their first byte: one is a line end, the other is not.
    have heads := congrArg List.head? (Option.some.inj same)
    rw [List.head?_take, List.head?_take, if_neg (by omega), if_neg (by omega),
      List.head?_drop, List.head?_drop,
      List.getElem?_eq_getElem (by omega), List.getElem?_eq_getElem (by omega)] at heads
    have start := block.method_start _ (List.getElem?_eq_getElem (by omega))
    have lead := block.leading _
      (List.mem_take_iff_getElem.mpr ⟨block.methodOfs - shift, by omega, rfl⟩)
    rw [Option.some.inj heads, start] at lead
    cases lead

/-- Counting from any other start behind it, the request is never delivered: a move of the
buffer that makes up for the shift puts the method's pointer before the method.
-/
theorem receiveBody_crooked {shift : Nat} (some_shift : 0 < shift)
    (small : shift < request.block.bytes.length) (size : hcs.req.mem.size < 2 ^ 63)
    (counting : Counting request home
      (home + .ofNat shift + .ofNat request.block.bytes.length) hcs)
    (ordered : hcs.received <+: request.bytes)
    : hcs.received.length < request.bytes.length ∧ receiveBody hcs = hcs
      ∨ Lost request (receiveBody hcs) := by
  have gap := counting.bodyReceived
  by_cases part : hcs.received.length < request.bytes.length
  · by_cases equal : HttpClientSocket.bodyReceived hcs.req = hcs.req.bodyLen
    · rw [receiveBody_equal equal]
      exact .inr (early_lost part)
    · rcases UInt64.lt_or_lt_of_ne equal with below | above
      · exact .inl ⟨part, receiveBody_below below⟩
      · rw [receiveBody_above above]
        exact .inr (.closed rfl)
  -- with every byte there the count agrees only for a buffer moved by `shift`, and then the
  -- method is read from the wrong place
  · have all := ordered.eq_of_length_le (Nat.le_of_not_lt part)
    have body : hcs.received.length - request.block.bytes.length = request.body.length := by
      rw [all, Request.length_bytes, Nat.add_sub_cancel_left]
    rw [body, declaredLen_eq] at gap
    by_cases same : HttpClientSocket.bodyReceived hcs.req = request.block.declaredLen
    · have moved : home = hcs.req.mem.base - .ofNat shift := by grind
      refine .inr (.garbled ⟨hcs.req.seen, hcs.received.length⟩ ?_ ?_)
      · rw [receiveBody_equal (same.trans counting.bodyLen.symm)]
        exact List.mem_append_right _ (List.mem_singleton_self _)
      · intro whole
        have short := request.block.short
        refine text_method_shifted request.block (all ▸ counting.filled) size some_shift
          (by omega) ?_
        rw [← moved, ← counting.method]
        exact congrArg Seen.method whole
    · exact .inr (counting.stuck_lost all same)

end CountingBody

/-- A length is the same unsigned number from `Int` and from `Nat`. -/
theorem ofInt_natCast (n : Nat) : UInt64.ofInt n = UInt64.ofNat n := by
  apply UInt64.toNat_inj.mp
  rw [UInt64.ofInt, UInt64.toNat_ofNat', UInt64.toNat_ofNat']
  omega

section ParsingHeader

variable {request : Request phr} {hcs : HttpClientSocket} {mem : Membuf} {data : Bytes}
  (parsing : Parsing request hcs) (filled : mem.filled = hcs.req.mem.filled ++ data)
  (prev : mem.prev = hcs.req.mem.cur)

include parsing filled prev

/-- An incomplete header block is parsed again when more has come. -/
theorem parseHeader_part (ordered : hcs.received ++ data <+: request.bytes)
    (nonempty : data ≠ [])
    (part : (hcs.received ++ data).length < request.block.bytes.length)
    : Parsing request (parseHeader phr (hcs.extend mem data)) := by
  have seen := congrArg List.length parsing.filled
  have longer := List.length_pos_iff.mpr nonempty
  have text : mem.filled = request.block.bytes.take (hcs.received ++ data).length := by
    rw [filled, parsing.filled]
    refine List.prefix_iff_eq_take.mp ?_
    exact List.prefix_of_prefix_length_le ordered (List.prefix_append _ _) (Nat.le_of_lt part)
  have incomplete : (phr mem.filled mem.prev).1 = -2 := by
    rw [text, prev]
    refine request.block.incomplete _ _ ?_ part
    rw [Membuf.length_filled] at seen
    rw [seen, List.length_append]
    omega
  have waits : parseHeader phr (hcs.extend mem data)
      = { hcs.extend mem data with
          req := { hcs.req with mem := mem }.store (phr mem.filled mem.prev).2 } := by
    simp [parseHeader, httpParseRequest, HttpClientSocket.extend, incomplete]
  rw [waits]
  exact {
    isOpen := parsing.isOpen
    alive := parsing.alive
    state := parsing.state
    uncalled := parsing.uncalled
    filled := filled.trans (by rw [parsing.filled]; rfl)
    part := part
    body := parsing.body
    bodyLen := parsing.bodyLen
  }

/-- Once the block is complete it is parsed, with the strings at the buffer's address. A
request without a body is handed on at once; else the body is counted from an address that
lies too far behind by what had come before this read.
-/
theorem parseHeader_whole (begun : request.block.bytes <+: hcs.received ++ data)
    : (request.block.declaredLen = 0
        → parseHeader phr (hcs.extend mem data)
          = callHandler
            { hcs.extend mem data with
              req := { hcs.req with mem := mem }.store request.block.parsed })
      ∧ (request.block.declaredLen ≠ 0
        → ∃ counted : HttpClientSocket,
          parseHeader phr (hcs.extend mem data) = receiveBody counted
          ∧ counted.received = hcs.received ++ data ∧ counted.req.mem = mem
          ∧ Counting request mem.base
            (mem.base + .ofNat hcs.received.length + .ofNat request.block.bytes.length)
            counted) := by
  have whole : mem.filled = hcs.received ++ data := filled.trans (by rw [parsing.filled])
  have cur : mem.prev = hcs.received.length := by
    rw [prev, ← Membuf.length_filled, parsing.filled]
  obtain ⟨extra, text⟩ := begun
  -- this read completes the head, whatever follows it in the buffer
  have complete : phr mem.filled mem.prev
      = ((request.block.bytes.length : Int), request.block.parsed) := by
    rw [whole, ← text, cur]
    exact request.block.complete extra _ parsing.part
  have found := determineBodyLen_at request.block (whole.trans text.symm)
    { hcs.req with mem := mem } rfl
  constructor
  · intro none_declared
    rw [none_declared] at found
    simp [parseHeader, httpParseRequest, HttpClientSocket.extend, complete, found]
  -- with a body declared the request waits in `receivingBody`, with `body` where the parser
  -- stopped
  · intro declared
    rw [← found] at declared
    refine ⟨{ hcs.extend mem data with
      req := { { hcs.req with mem := mem }.store request.block.parsed with
        body := mem.base + .ofNat mem.prev + .ofInt request.block.bytes.length
        bodyLen := httpRequestDetermineBodyLen
          ({ hcs.req with mem := mem }.store request.block.parsed) }
      httpState := .receivingBody }, ?_, rfl, rfl, ?_⟩
    · simp only [parseHeader, httpParseRequest, HttpClientSocket.extend, complete]
      rw [if_neg (by omega), if_neg (by omega), if_neg declared]
      rfl
    · exact {
        isOpen := parsing.isOpen
        alive := parsing.alive
        state := rfl
        uncalled := parsing.uncalled
        filled := whole
        begun := ⟨extra, text⟩
        minorVersion := rfl
        method := rfl
        path := rfl
        headers := rfl
        body := by rw [cur, ofInt_natCast]
        bodyLen := found
      }

end ParsingHeader

section Runs

variable {request : Request phr} {hcs : HttpClientSocket}
  {path : List (Read × HttpClientSocket)}

/-- The segmentations of a request: reads that bring its bytes in order. -/
abbrev Segmented (request : Request phr) (start : HttpClientSocket)
    (path : List (Read × HttpClientSocket)) : Prop :=
  Path (Fires fun hcs read => hcs.read? phr request.bytes read) start path

/-- A lost request stays lost to the end of any run, by `Lost.read?`. -/
theorem Lost.final (run : Segmented request hcs path) (lost : Lost request hcs)
    : Lost request (final hcs path) := by
  induction run with
  | nil => exact lost
  | cons first _ ih => exact ih (lost.read? first)

/-- No read follows the request's last byte. -/
theorem path_eq_nil (run : Segmented request hcs path) (all : hcs.received = request.bytes)
    : path = [] := by
  cases run with
  | nil => rfl
  | cons first _ =>
      obtain ⟨nonempty, ordered⟩ := read?_ordered first
      have longer := ordered.length_le
      rw [all, List.length_append] at longer
      exact absurd (List.length_eq_zero_iff.mp (by omega)) nonempty

/-- Receiving a body leaves the bytes received and the buffer. -/
theorem receiveBody_kept (hcs : HttpClientSocket)
    : (receiveBody hcs).received = hcs.received ∧ (receiveBody hcs).req.mem = hcs.req.mem := by
  unfold receiveBody
  repeat' split
  all_goals exact ⟨rfl, rfl⟩

/-- Parsing a header leaves the bytes received. -/
theorem parseHeader_received (hcs : HttpClientSocket)
    : (parseHeader phr hcs).received = hcs.received := by
  simp only [parseHeader]
  repeat' split
  · rfl
  · rfl
  · rfl
  · exact (receiveBody_kept _).1

/-- Whether a connection is on course does not change when the body is counted. -/
theorem onCourse_receiveBody {home : UInt64}
    : OnCourse request home (receiveBody hcs) ↔ OnCourse request home hcs := by
  obtain ⟨received, mem⟩ := receiveBody_kept hcs
  rw [OnCourse, OnCourse, received, mem]

/-- Bytes put into the buffer leave what is known while the body is counted. -/
theorem Counting.extend {home start : UInt64} (counting : Counting request home start hcs)
    {mem : Membuf} {data : Bytes} (filled : mem.filled = hcs.req.mem.filled ++ data)
    : Counting request home start (hcs.extend mem data) where
  isOpen := counting.isOpen
  alive := counting.alive
  state := counting.state
  uncalled := counting.uncalled
  filled := filled.trans (by rw [counting.filled]; rfl)
  begun := counting.begun.trans (List.prefix_append _ _)
  minorVersion := counting.minorVersion
  method := counting.method
  path := counting.path
  headers := counting.headers
  body := counting.body
  bodyLen := counting.bodyLen

/-- A read while the body is counted is counted from the same start. -/
theorem Counting.read? {home start : UInt64} (counting : Counting request home start hcs)
    {read : Read} {after : HttpClientSocket}
    (h : hcs.read? phr request.bytes read = some after)
    : ∃ counted, after = receiveBody counted ∧ Counting request home start counted
      ∧ counted.received <+: request.bytes ∧ counted.req.mem.size < 2 ^ 63 := by
  obtain ⟨ordered, -, mem, filled, -, size, done⟩ :=
    read?_open counting.isOpen counting.alive h
  rw [counting.state] at done
  exact ⟨_, done, counting.extend filled, ordered, size⟩

/-- From a start that lies too far behind nothing is delivered, by induction on the reads. -/
theorem crooked_final {home : UInt64} {shift : Nat} (some_shift : 0 < shift)
    (small : shift < request.block.bytes.length) {counted : HttpClientSocket}
    (counting : Counting request home
      (home + .ofNat shift + .ofNat request.block.bytes.length) counted)
    (ordered : counted.received <+: request.bytes) (size : counted.req.mem.size < 2 ^ 63)
    (run : Segmented request (receiveBody counted) path)
    (complete : (final (receiveBody counted) path).received = request.bytes)
    : Lost request (final (receiveBody counted) path) := by
  generalize at_start : receiveBody counted = start at run complete
  -- on the reads: the count stays off by `shift` until the request is lost
  induction run generalizing counted with
  | nil =>
      subst at_start
      rcases receiveBody_crooked some_shift small size counting ordered with
        ⟨part, same⟩ | lost
      · rw [Transition.final, (receiveBody_kept counted).1] at complete
        rw [complete] at part
        exact absurd part (Nat.lt_irrefl _)
      · exact lost
  | cons first tail ih =>
      subst at_start
      rcases receiveBody_crooked some_shift small size counting ordered with
        ⟨part, same⟩ | lost
      · rw [same] at first
        obtain ⟨next, stepped, counting, ordered, size⟩ := counting.read? first
        exact ih counting ordered size stepped.symm complete
      · exact Lost.final (.cons first tail) lost

/-- From the true start the request is delivered exactly when the buffer's moves never show,
by induction on the reads.
-/
theorem aligned_final {home : UInt64} {counted : HttpClientSocket}
    (counting : Counting request home (home + .ofNat request.block.bytes.length) counted)
    (ordered : counted.received <+: request.bytes)
    (run : Segmented request (receiveBody counted) path)
    (complete : (final (receiveBody counted) path).received = request.bytes)
    : Delivered request (final (receiveBody counted) path)
      ↔ EveryState (OnCourse request home) (receiveBody counted) path := by
  generalize at_start : receiveBody counted = start at run complete
  -- on the reads: while on course the counting goes on, once off course the request is lost
  induction run generalizing counted with
  | nil =>
      subst at_start
      rw [Transition.final, (receiveBody_kept counted).1] at complete
      rw [Transition.final, EveryState, onCourse_receiveBody]
      rcases receiveBody_aligned counting ordered with
        ⟨part, -, -⟩ | ⟨-, course, delivered⟩ | ⟨off, lost⟩
      · rw [complete] at part
        exact absurd part (Nat.lt_irrefl _)
      · exact iff_of_true delivered course
      · exact iff_of_false lost.not_delivered off
  | cons first tail ih =>
      subst at_start
      rcases receiveBody_aligned counting ordered with
        ⟨-, course, same⟩ | ⟨all, -, -⟩ | ⟨off, lost⟩
      · have here := course
        rw [← same] at here
        rw [same] at first
        obtain ⟨next, stepped, counting, ordered, -⟩ := counting.read? first
        have later := ih counting ordered stepped.symm complete
        exact later.trans (iff_and_self.mpr fun _ => here)
      · have whole := (receiveBody_kept counted).1.trans all
        exact nomatch path_eq_nil (.cons first tail) whole
      · refine iff_of_false (Lost.final (.cons first tail) lost).not_delivered ?_
        intro kept
        exact off (onCourse_receiveBody.mp kept.1)

/-- A request has no body exactly when its header block declares none. -/
theorem body_eq_nil_iff (request : Request phr)
    : request.body = [] ↔ request.block.declaredLen = 0 := by
  rw [← List.length_eq_zero_iff, request.body_length, ← UInt64.toNat_inj]
  rfl

/-- A read while the header block is parsed leaves it incomplete, delivers a request without
a body, or starts to count the body behind this read's first byte.
-/
theorem Parsing.read? (parsing : Parsing request hcs) {read : Read} {after : HttpClientSocket}
    (h : hcs.read? phr request.bytes read = some after)
    : Parsing request after ∧ after.received = hcs.received ++ read.data
      ∨ request.body = [] ∧ Delivered request after ∧ after.received = request.bytes
      ∨ request.body ≠ [] ∧ request.block.bytes.length ≤ hcs.received.length + read.data.length
        ∧ ∃ counted, after = receiveBody counted
          ∧ counted.received <+: request.bytes ∧ counted.req.mem.size < 2 ^ 63
          ∧ Counting request counted.req.mem.base
            (counted.req.mem.base + .ofNat hcs.received.length
              + .ofNat request.block.bytes.length) counted := by
  obtain ⟨ordered, nonempty, mem, filled, prev, size, done⟩ :=
    read?_open parsing.isOpen parsing.alive h
  rw [parsing.state] at done
  -- the three outcomes: the head is still incomplete, it is whole without a body, or with one
  by_cases part : (hcs.received ++ read.data).length < request.block.bytes.length
  · refine .inl ?_
    have waits := parseHeader_part parsing filled prev ordered nonempty part
    rw [done]
    exact ⟨waits, parseHeader_received (hcs.extend mem read.data)⟩
  · have begun : request.block.bytes <+: hcs.received ++ read.data :=
      List.prefix_of_prefix_length_le (List.prefix_append _ _) ordered (Nat.le_of_not_lt part)
    obtain ⟨bodyless, bodied⟩ := parseHeader_whole parsing filled prev begun
    by_cases empty : request.body = []
    · refine .inr (.inl ⟨empty, ?_⟩)
      -- a body of length zero leaves no bytes behind the head
      have all : hcs.received ++ read.data = request.bytes := by
        refine ordered.eq_of_length_le ?_
        rw [Request.length_bytes, empty]
        exact Nat.le_of_not_lt part
      rw [bodyless ((body_eq_nil_iff request).mp empty)] at done
      subst done
      have text : mem.filled = request.bytes := by rw [filled, parsing.filled, all]
      have seen : ({ hcs.req with mem := mem }.store request.block.parsed).seen
          = request.seen := by
        refine seen_eq text rfl rfl rfl rfl ?_
        simp [HttpRequest.store, parsing.bodyLen, Membuf.text, empty]
      exact ⟨⟨parsing.isOpen, parsing.alive,
        by simp [callHandler, HttpClientSocket.extend, parsing.uncalled, seen, all]⟩, all⟩
    · refine .inr (.inr ⟨empty, by simpa using part, ?_⟩)
      obtain ⟨counted, parsed, received, here, counting⟩ :=
        bodied fun zero => empty ((body_eq_nil_iff request).mpr zero)
      refine ⟨counted, done.trans parsed, received ▸ ordered, here ▸ size, ?_⟩
      rw [here]
      exact counting

/-- Once some bytes of the header block have come alone, only a request without a body is
delivered, by induction on the reads.
-/
theorem parsing_final (parsing : Parsing request hcs) (some_bytes : hcs.received ≠ [])
    (run : Segmented request hcs path) (complete : (final hcs path).received = request.bytes)
    : Delivered request (final hcs path) ↔ request.body = [] := by
  -- the head waits read by read; the one that completes it settles what becomes of the body
  induction run with
  | nil =>
      have part := parsing.part
      rw [Transition.final] at complete
      rw [complete, Request.length_bytes] at part
      omega
  | cons first tail ih =>
      rcases parsing.read? first with ⟨waits, received⟩ | ⟨empty, delivered, all⟩ |
        ⟨loaded, -, counted, rfl, ordered, size, counting⟩
      · exact ih waits (by simp [received, some_bytes]) complete
      · obtain rfl := path_eq_nil tail all
        exact iff_of_true delivered empty
      · have lost := crooked_final (List.length_pos_iff.mpr some_bytes) parsing.part counting
          ordered size tail complete
        exact iff_of_false lost.not_delivered loaded

/-- A connection without any byte is parsing the header. -/
theorem parsing_fresh (request : Request phr) (req : HttpRequest)
    : Parsing request (.fresh req) where
  isOpen := rfl
  alive := rfl
  state := rfl
  uncalled := rfl
  filled := rfl
  part := by
    have inside := request.block.inside _ (List.mem_cons_self ..) _ request.block.method
    have positive := request.block.method_pos
    change 0 < request.block.bytes.length
    omega
  body := rfl
  bodyLen := rfl

/-- The header block comes whole in the first read, and from then on the buffer's moves never
show. A request without a body needs neither.
-/
def Unbroken (request : Request phr) : List (Read × HttpClientSocket) → Prop
  | [] => request.body = []
  | (first, hcs) :: rest =>
      request.body = []
      ∨ request.block.bytes.length ≤ first.data.length
        ∧ EveryState (OnCourse request hcs.req.mem.base) hcs rest

/-- However a request is cut into reads, and wherever the allocator puts the buffer when it
grows, the request is delivered exactly when the segmentation is unbroken.
-/
theorem request_delivered_iff (request : Request phr) (req : HttpRequest)
    (run : Segmented request (.fresh req) path)
    (complete : (final (.fresh req) path).received = request.bytes)
    : Delivered request (final (.fresh req) path) ↔ Unbroken request path := by
  have parsing := parsing_fresh request req
  cases run with
  | nil =>
      have part := parsing.part
      rw [Transition.final] at complete
      rw [complete, Request.length_bytes] at part
      omega
  | cons first tail =>
      rename_i read after rest
      have nonempty := (read?_ordered first).1
      -- only a head that is whole with the first read leaves `body` right behind it
      rcases parsing.read? first with ⟨waits, received⟩ | ⟨empty, delivered, all⟩ |
        ⟨loaded, whole, counted, rfl, ordered, size, counting⟩
      · have some_bytes : after.received ≠ [] := by
          rw [received]
          exact List.append_ne_nil_of_right_ne_nil _ nonempty
        have part := waits.part
        rw [received] at part
        have short : ¬ request.block.bytes.length ≤ read.data.length := by
          simp only [List.length_append] at part
          omega
        have bodyless := parsing_final waits some_bytes tail complete
        simpa [Unbroken, Transition.final, short] using bodyless
      · obtain rfl := path_eq_nil tail all
        exact iff_of_true delivered (.inl empty)
      · have start : UInt64.ofNat (HttpClientSocket.fresh req).received.length = 0 := rfl
        rw [start, UInt64.add_zero] at counting
        have base : (receiveBody counted).req.mem.base = counted.req.mem.base := by
          rw [(receiveBody_kept counted).2]
        have aligned := aligned_final counting ordered tail complete
        have first_whole : request.block.bytes.length ≤ read.data.length := by
          simpa [HttpClientSocket.fresh] using whole
        rw [← base] at aligned
        simpa [Unbroken, Transition.final, loaded, first_whole] using aligned

end Runs

instance {request : Request phr} {home : UInt64} (hcs : HttpClientSocket)
    : Decidable (OnCourse request home hcs) := by
  unfold OnCourse
  infer_instance

instance {request : Request phr} (path : List (Read × HttpClientSocket))
    : Decidable (Unbroken request path) :=
  match path with
  | [] => inferInstanceAs (Decidable (request.body = []))
  | (_, _) :: _ => inferInstanceAs (Decidable (_ ∨ _))

section Sample

/-- "POST / HTTP/1.1", "Content-Length: 3" and the empty line. -/
def sampleHeader : Bytes :=
  [0x50, 0x4f, 0x53, 0x54, 0x20, 0x2f, 0x20, 0x48, 0x54, 0x54, 0x50, 0x2f, 0x31, 0x2e, 0x31,
    0x0d, 0x0a] ++ contentLength ++ [0x3a, 0x20, 0x33, 0x0d, 0x0a, 0x0d, 0x0a]

def sampleParsed : Parsed where
  method := ⟨some 0, 4⟩
  path := ⟨some 5, 1⟩
  minorVersion := 1
  headers := [⟨⟨some 17, 14⟩, ⟨some 33, 1⟩⟩]

/-- What the parser answers on the sample's bytes. -/
def samplePhr : PhrParseRequest := fun buf _ =>
  if sampleHeader <+: buf then (38, sampleParsed) else (-2, ⟨⟨none, 0⟩, ⟨none, 0⟩, -1, []⟩)

def sampleBlock : HeaderBlock samplePhr where
  bytes := sampleHeader
  parsed := sampleParsed
  incomplete n _ _ short := by
    have cut : ¬ sampleHeader <+: sampleHeader.take n := by
      intro whole
      have longer := whole.length_le
      rw [List.length_take] at longer
      omega
    simp [samplePhr, cut]
  complete extra _ _ := if_pos (List.prefix_append _ extra)
  short := by decide
  headers_le := by decide
  inside := by decide
  null_len := by decide
  methodOfs := 0
  method := rfl
  method_pos := by decide
  leading := by simp
  method_start := by
    intro b first
    obtain rfl := Option.some.inj first
    rfl
  values := by
    intro h member
    obtain rfl := List.mem_singleton.mp member
    exact ⟨33, rfl, 0x0d, rfl, rfl⟩

def sampleRequest : Request samplePhr where
  block := sampleBlock
  body := [0x61, 0x62, 0x63]
  body_length := by decide

def sampleReq : HttpRequest where
  mem := .init ⟨4096, fun _ => 0⟩ 5000000
  minorVersion := 0
  method := .null
  path := .null
  headers := []
  body := 0
  bodyLen := 0

/-- The sample request cut in two. -/
def sampleCut (cut : Nat) : List (Read × HttpClientSocket) :=
  runOf (fun hcs read => hcs.read? samplePhr sampleRequest.bytes read) (.fresh sampleReq)
    [⟨⟨8192, fun _ => 0⟩, sampleRequest.bytes.take cut⟩,
      ⟨⟨8192, fun _ => 0⟩, sampleRequest.bytes.drop cut⟩]

/-- Cut inside the body, it is delivered. -/
theorem request_delivered_sampleCut
    : Delivered sampleRequest (final (.fresh sampleReq) (sampleCut 39)) :=
  (request_delivered_iff sampleRequest sampleReq (runOf_path _ _ _) (by decide +kernel)).mpr
    (by decide +kernel)

/-- Cut inside the header block, it is not: the connection is closed. -/
theorem request_not_delivered
    : ¬ ∀ (request : Request samplePhr) (req : HttpRequest)
        (path : List (Read × HttpClientSocket)),
        Segmented request (.fresh req) path
        → (final (.fresh req) path).received = request.bytes
        → Delivered request (final (.fresh req) path) := by
  intro always
  have delivered := always sampleRequest sampleReq (sampleCut 5) (runOf_path _ _ _)
    (by decide +kernel)
  have isOpen := delivered.isOpen
  revert isOpen
  decide +kernel

end Sample

end PrismHTTP.Server
