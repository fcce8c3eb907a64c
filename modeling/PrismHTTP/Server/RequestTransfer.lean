import PrismHTTP.Server.BufferRoom
import PrismHTTP.Server.HttpServer

/-! A request handed to another server, with its pointers as offsets into the buffer.
The offsets are unsigned 64-bit numbers, so that of a NULL name is no place in the buffer; it
does no harm because the name's length is zero.
-/

namespace PrismHTTP.Server
open MemoryBlock

/-- `prism::HTTPHeader` -/
structure HTTPHeader where
  nameOfs : UInt64
  nameLen : UInt64
  valOfs : UInt64
  valLen : UInt64

/-- `prism::HTTPReq`, whose fields are independent of each other on the wire. -/
structure HTTPReq where
  buf : Bytes
  minorVersion : UInt32
  methodOfs : UInt64
  methodLen : UInt64
  pathOfs : UInt64
  pathLen : UInt64
  bodyOfs : UInt64
  bodyLen : UInt64
  nheaders : UInt64
  headers : List HTTPHeader

/-- The size `http_request_init` gives the buffer. -/
def requestBufferSize : Nat := 5000000

def httpRequestInit (block : Block) : HttpRequest where
  mem := .init block requestBufferSize
  minorVersion := 0
  method := .null
  path := .null
  headers := .replicate HTTP_HEADERS_MAX ⟨.null, .null⟩
  body := 0
  bodyLen := 0

def httpRequestExport (req : HttpRequest) : HTTPReq where
  buf := req.mem.filled
  minorVersion := .ofInt req.minorVersion
  methodOfs := req.method.ptr - req.mem.base
  methodLen := .ofNat req.method.len
  pathOfs := req.path.ptr - req.mem.base
  pathLen := .ofNat req.path.len
  bodyOfs := if req.body ≠ 0 then req.body - req.mem.base else 0
  bodyLen := if req.body ≠ 0 then req.bodyLen else 0
  nheaders := .ofNat req.headers.length
  headers := req.headers.map fun h =>
    ⟨h.name.ptr - req.mem.base, .ofNat h.name.len, h.val.ptr - req.mem.base,
      .ofNat h.val.len⟩

/-- A header's strings, as addresses in the block at `base`. -/
def HTTPHeader.at (h : HTTPHeader) (base : UInt64) : HttpHeader :=
  ⟨⟨base + h.nameOfs, h.nameLen.toNat⟩, ⟨base + h.valOfs, h.valLen.toNat⟩⟩

/-- The loop over the next `n` headers from index `i`. It runs to the count in the message;
`none` is an index outside the array in the request or outside the headers of the message.
-/
def importHeaders (base : UInt64) (headers : List HTTPHeader)
    : Nat → Nat → Option (List HttpHeader)
  | _, 0 => some []
  | i, n + 1 =>
      if i < HTTP_HEADERS_MAX then do
        let h ← headers[i]?
        let rest ← importHeaders base headers (i + 1) n
        return h.at base :: rest
      else
        none

/-- The new block is only as large as what was missing; `none` is `memcpy` past its end or a
header out of range.
-/
def httpRequestImport (req : HttpRequest) (ex : HTTPReq) (grown : Block)
    : Option HttpRequest := do
  let mem :=
    if req.mem.avail < ex.buf.length then
      req.mem.grow (ex.buf.length - req.mem.avail) grown
    else
      req.mem
  let mem ← (mem.receive ex.buf).consume ex.buf.length
  let headers ← importHeaders mem.base ex.headers 0 ex.nheaders.toNat
  return {
    mem := mem
    minorVersion := ex.minorVersion.toInt32.toInt
    method := ⟨mem.base + ex.methodOfs, ex.methodLen.toNat⟩
    path := ⟨mem.base + ex.pathOfs, ex.pathLen.toNat⟩
    body := if ex.bodyLen = 0 then 0 else mem.base + ex.bodyOfs
    bodyLen := ex.bodyLen
    headers := headers
  }

/-- The loop succeeds exactly when all its indices are in range of both arrays. -/
theorem importHeaders_eq_some_iff {base : UInt64} {headers : List HTTPHeader} {i n : Nat}
    {out : List HttpHeader}
    : importHeaders base headers i n = some out
      ↔ (n = 0 ∨ (i + n ≤ HTTP_HEADERS_MAX ∧ i + n ≤ headers.length))
        ∧ out = ((headers.drop i).take n).map (HTTPHeader.at · base) := by
  induction n generalizing i out with
  | zero => simp [importHeaders, eq_comm]
  | succ n ih =>
      simp only [importHeaders]
      -- the source tests neither bound, and past either of them the copy has no meaning
      by_cases inside : i < HTTP_HEADERS_MAX ∧ i < headers.length
      · obtain ⟨slot, present⟩ := inside
        have read : headers.drop i = headers[i] :: headers.drop (i + 1) :=
          List.drop_eq_getElem_cons present
        rw [if_pos slot, List.getElem?_eq_getElem present, read]
        simp only [Option.pure_def, Option.bind_eq_bind, Option.bind_some,
          Option.bind_eq_some_iff, ih, Option.some.injEq, List.take_succ_cons, List.map_cons]
        constructor
        · rintro ⟨rest, ⟨range, rfl⟩, rfl⟩
          exact ⟨by omega, rfl⟩
        · rintro ⟨range, rfl⟩
          exact ⟨_, ⟨by omega, rfl⟩, rfl⟩
      · have none_read : ¬ (n + 1 = 0
            ∨ (i + (n + 1) ≤ HTTP_HEADERS_MAX ∧ i + (n + 1) ≤ headers.length)) := by
          omega
        simp only [none_read, false_and, iff_false]
        by_cases slot : i < HTTP_HEADERS_MAX
        · simp [slot, show headers.length ≤ i by omega]
        · simp [slot]

/-- The request as import leaves it once the message's bytes are in `mem`. -/
def HTTPReq.imported (ex : HTTPReq) (mem : Membuf) : HttpRequest where
  mem := mem
  minorVersion := ex.minorVersion.toInt32.toInt
  method := ⟨mem.base + ex.methodOfs, ex.methodLen.toNat⟩
  path := ⟨mem.base + ex.pathOfs, ex.pathLen.toNat⟩
  body := if ex.bodyLen = 0 then 0 else mem.base + ex.bodyOfs
  bodyLen := ex.bodyLen
  headers := (ex.headers.take ex.nheaders.toNat).map (HTTPHeader.at · mem.base)

/-- Import comes to its end exactly when the bytes fit the buffer it made room in and all the
headers it counts are in range.
-/
theorem httpRequestImport_eq_some_iff {req after : HttpRequest} {ex : HTTPReq} {grown : Block}
    : httpRequestImport req ex grown = some after
      ↔ (ex.nheaders.toNat ≤ HTTP_HEADERS_MAX ∧ ex.nheaders.toNat ≤ ex.headers.length)
        ∧ ∃ mem,
            ((req.mem.roomFor ex.buf.length grown).receive ex.buf).consume ex.buf.length
              = some mem
            ∧ after = ex.imported mem := by
  have room : (if req.mem.avail < ex.buf.length then
      req.mem.grow (ex.buf.length - req.mem.avail) grown else req.mem)
      = req.mem.roomFor ex.buf.length grown := rfl
  simp only [httpRequestImport, room, Option.bind_eq_bind, Option.bind_eq_some_iff,
    Option.pure_def, importHeaders_eq_some_iff, Nat.zero_add, List.drop_zero,
    Option.some.injEq]
  constructor
  · rintro ⟨mem, consumed, headers, ⟨range, rfl⟩, rfl⟩
    exact ⟨by omega, mem, consumed, rfl⟩
  · rintro ⟨range, mem, consumed, rfl⟩
    exact ⟨mem, consumed, _, ⟨.inr range, rfl⟩, rfl⟩

/-- A message that does not fit a fresh buffer overruns the block it is given. -/
theorem fits_of_imported {block grown : Block} {ex : HTTPReq} {after : HttpRequest}
    (imported : httpRequestImport (httpRequestInit block) ex grown = some after)
    : ex.buf.length ≤ requestBufferSize := by
  obtain ⟨-, mem, consumed, -⟩ := httpRequestImport_eq_some_iff.mp imported
  have avail : (httpRequestInit block).mem.avail = requestBufferSize := rfl
  have room : ex.buf.length
      ≤ ((httpRequestInit block).mem.roomFor ex.buf.length grown).avail := by
    refine Classical.byContradiction fun large => ?_
    have overrun : ¬ ex.buf.length
        ≤ (((httpRequestInit block).mem.roomFor ex.buf.length grown).receive ex.buf).avail :=
      large
    rw [Membuf.consume, dif_neg overrun] at consumed
    contradiction
  have some_size : requestBufferSize ≠ 0 := by decide
  rw [Membuf.le_avail_roomFor_iff, avail] at room
  exact room.resolve_right some_size

def HttpRequest.bodyText (req : HttpRequest) : Text := ⟨req.body, req.bodyLen.toNat⟩

/-- All the strings of a request. -/
def HttpRequest.texts (req : HttpRequest) : List Text :=
  req.method :: req.path :: req.bodyText :: req.headers.flatMap fun h => [h.name, h.val]

/-- The string is inside the used part of the buffer, if there is anything to it. -/
def Membuf.Holds (buf : Membuf) (t : Text) : Prop :=
  t.len ≠ 0 → buf.offset t.ptr + t.len ≤ buf.cur

/-- A request as parsing and the reception of its body leave it, in a buffer that was not
moved since.
-/
structure Settled (req : HttpRequest) : Prop where
  minorVersion : -2 ^ 31 ≤ req.minorVersion ∧ req.minorVersion < 2 ^ 31
  headers_le : req.headers.length ≤ HTTP_HEADERS_MAX
  inside : ∀ t ∈ req.texts, t.ptr ≠ 0 → req.mem.offset t.ptr + t.len ≤ req.mem.cur
  null_len : ∀ t ∈ req.texts, t.ptr = 0 → t.len = 0
  bodied : req.body ≠ 0 → req.bodyLen ≠ 0

/-- Both requests say the same, each in its own buffer. -/
structure SameRequest (req after : HttpRequest) : Prop where
  filled : after.mem.filled = req.mem.filled
  nheaders : after.headers.length = req.headers.length
  body : after.body = 0 ↔ req.body = 0
  bodyLen : after.bodyLen = req.bodyLen
  seen : after.seen = req.seen
  readable : ∀ t ∈ after.texts, (after.mem.text t).isSome
  inside : ∀ t ∈ after.texts, after.mem.Holds t

section Texts

variable {a b : Membuf} {t : Text}

/-- A load from the used part of the buffer is a stretch of its bytes. -/
theorem Membuf.load_filled (buf : Membuf) {ofs len : Nat} (inside : ofs + len ≤ buf.cur)
    : load buf.mem ofs len = (buf.filled.drop ofs).take len := by
  rw [Membuf.filled, drop_load _ (by omega), take_load _ (by omega), Nat.zero_add]

/-- A string inside is read from the used part. -/
theorem Membuf.Holds.text (held : a.Holds t)
    : a.text t = some ((a.filled.drop (a.offset t.ptr)).take t.len) := by
  unfold Membuf.text
  split
  · next none_len => rw [none_len, List.take_zero]
  · next some_len =>
    have inside := held some_len
    have extent := a.cur_le_size
    rw [if_pos (by omega), Membuf.load_filled a inside]

/-- The address of a string after its offset went from one buffer to another. -/
def Text.move (t : Text) (a b : Membuf) : Text := ⟨b.base + (t.ptr - a.base), t.len⟩

/-- A string that is moved along with the buffer stays at its place. -/
theorem offset_move (t : Text) (a b : Membuf)
    : b.offset (t.move a b).ptr = a.offset t.ptr := by
  unfold Membuf.offset Text.move
  congr 1
  grind

variable (same : b.filled = a.filled)

include same

/-- A buffer with the same bytes holds the strings that are moved to it. -/
theorem Membuf.Holds.move (held : a.Holds t) : b.Holds (t.move a b) := by
  intro some_len
  have inside := held some_len
  have cur := congrArg List.length same
  rw [Membuf.length_filled, Membuf.length_filled] at cur
  rw [offset_move, cur]
  exact inside

/-- With the same bytes before `cur`, a string inside reads the same at its offset. -/
theorem Membuf.Holds.text_move (held : a.Holds t) : b.text (t.move a b) = a.text t := by
  rw [(held.move same).text, held.text, offset_move, same]
  rfl

end Texts

section Transfer

variable {req : HttpRequest} (settled : Settled req)

include settled

/-- The buffer of a settled request holds all of its strings. -/
theorem Settled.holds {t : Text} (member : t ∈ req.texts) : req.mem.Holds t := by
  intro some_len
  exact settled.inside t member fun null => some_len (settled.null_len t member null)

/-- No string is longer than what the buffer holds. -/
theorem Settled.len_le {t : Text} (member : t ∈ req.texts) : t.len ≤ req.mem.cur := by
  by_cases empty : t.len = 0
  · omega
  · have inside := settled.holds member empty
    omega

/-- A settled request has an address of a body exactly when it has a body. -/
theorem Settled.body_eq_zero_iff : req.body = 0 ↔ req.bodyLen = 0 := by
  constructor
  · intro null
    have body : req.bodyText ∈ req.texts := by simp [HttpRequest.texts]
    exact UInt64.toNat_inj.mp (settled.null_len _ body null)
  · intro zero
    exact Classical.byContradiction fun some_body => settled.bodied some_body zero

end Transfer

/-- A minor version passes through the unsigned field unchanged. -/
theorem minorVersion_transfer {v : Int} (h : -2 ^ 31 ≤ v ∧ v < 2 ^ 31)
    : (UInt32.ofInt v).toInt32.toInt = v := by
  change (BitVec.ofNat 32 (v % 2 ^ 32).toNat).toInt = v
  rw [BitVec.toInt_ofNat', Int.toNat_of_nonneg (Int.emod_nonneg _ (by decide))]
  have range : ((2 ^ 32 : Nat) : Int) = 4294967296 := rfl
  exact (Int.emod_bmod ..).trans
    (Int.bmod_eq_of_le (by rw [range]; omega) (by rw [range]; omega))

/-- The request with its strings moved to another buffer. -/
def HttpRequest.move (req : HttpRequest) (mem : Membuf) : HttpRequest where
  mem := mem
  minorVersion := req.minorVersion
  method := req.method.move req.mem mem
  path := req.path.move req.mem mem
  body := if req.body = 0 then 0 else mem.base + (req.body - req.mem.base)
  bodyLen := req.bodyLen
  headers := req.headers.map fun h => ⟨h.name.move req.mem mem, h.val.move req.mem mem⟩

/-- The name and the value of a header are among the strings of the request. -/
theorem mem_texts {req : HttpRequest} {h : HttpHeader} (member : h ∈ req.headers)
    : h.name ∈ req.texts ∧ h.val ∈ req.texts := by
  simp only [HttpRequest.texts, List.mem_cons, List.mem_flatMap]
  exact ⟨.inr (.inr (.inr ⟨h, member, .inl rfl⟩)),
    .inr (.inr (.inr ⟨h, member, .inr (.inl rfl)⟩))⟩

/-- Export and import move the strings to the new buffer. -/
theorem import_export {req : HttpRequest} (settled : Settled req)
    (small : req.mem.cur < 2 ^ 64) {target : HttpRequest}
    {mem : Membuf} (room : req.mem.filled.length ≤ target.mem.avail) (grown : Block)
    (consumed : (target.mem.receive req.mem.filled).consume req.mem.filled.length = some mem)
    : httpRequestImport target (httpRequestExport req) grown = some (req.move mem) := by
  have null := settled.body_eq_zero_iff
  have minorVersion := minorVersion_transfer settled.minorVersion
  -- every length fits its field of the message
  have len {t : Text} (member : t ∈ req.texts) : (UInt64.ofNat t.len).toNat = t.len := by
    have bound := settled.len_le member
    rw [UInt64.toNat_ofNat']
    omega
  have count : (UInt64.ofNat req.headers.length).toNat = req.headers.length := by
    have most : req.headers.length ≤ 16 := settled.headers_le
    rw [UInt64.toNat_ofNat']
    omega
  refine httpRequestImport_eq_some_iff.mpr ⟨?_, mem, ?_, ?_⟩
  · simp only [httpRequestExport, count, List.length_map]
    exact ⟨settled.headers_le, Nat.le_refl _⟩
  · have buf : (httpRequestExport req).buf = req.mem.filled := rfl
    rw [buf, Membuf.roomFor, if_neg (Nat.not_lt_of_le room)]
    exact consumed
  have headers : (req.move mem).headers = ((httpRequestExport req).imported mem).headers := by
    simp only [HTTPReq.imported, httpRequestExport, count, HttpRequest.move]
    rw [List.take_of_length_le (by simp), List.map_map]
    apply List.map_congr_left
    intro h member
    obtain ⟨name, val⟩ := mem_texts member
    simp only [Function.comp_apply, HTTPHeader.at, len name, len val]
    rfl
  have method := len (List.mem_cons_self ..)
  have path := len (List.mem_cons_of_mem _ (List.mem_cons_self ..))
  simp only [HttpRequest.move, HTTPReq.imported, httpRequestExport] at headers ⊢
  simp only [headers, minorVersion, method, path, HttpRequest.mk.injEq, true_and]
  refine ⟨rfl, rfl, ?_, ?_⟩
  -- the body is at the same distance from the buffer's start, or null on both sides
  · by_cases empty : req.body = 0
    · simp [empty]
    · simp [empty, settled.bodied empty]
  · by_cases empty : req.body = 0
    · simp [empty, null.mp empty]
    · simp [empty]

section Moving

variable {req : HttpRequest} {mem : Membuf} (settled : Settled req)
  (same : mem.filled = req.mem.filled)

include settled

/-- Without a body its text is empty in either place. -/
theorem bodyText_move (null : req.body = 0) (buf : Membuf)
    : (req.move mem).bodyText.len = 0 ∧ buf.text (req.move mem).bodyText = some []
      ∧ req.mem.text req.bodyText = some [] := by
  have none_len : req.bodyLen.toNat = 0 := by
    rw [settled.body_eq_zero_iff.mp null]
    rfl
  exact ⟨none_len, if_pos none_len, if_pos none_len⟩

include same

/-- A settled request that is moved is seen the same, string by string. -/
theorem Settled.seen_move : (req.move mem).seen = req.seen := by
  have text {t : Text} (member : t ∈ req.texts)
      : mem.text (t.move req.mem mem) = req.mem.text t :=
    (settled.holds member).text_move same
  have body : mem.text (req.move mem).bodyText = req.mem.text req.bodyText := by
    by_cases null : req.body = 0
    · obtain ⟨-, there, here⟩ := @bodyText_move req mem settled null mem
      rw [there, here]
    -- a body moves like the other strings
    · have whole : (req.move mem).bodyText = req.bodyText.move req.mem mem := by
        simp only [HttpRequest.bodyText, HttpRequest.move, if_neg null, Text.move]
      rw [whole]
      exact text (by simp [HttpRequest.texts])
  have lines : (req.move mem).seen.headers = req.seen.headers := by
    simp only [HttpRequest.seen, HttpRequest.move, List.map_map]
    apply List.map_congr_left
    intro h member
    simp only [Function.comp_apply]
    rw [text (mem_texts member).1, text (mem_texts member).2]
  have method := text (List.mem_cons_self ..)
  have path := text (List.mem_cons_of_mem _ (List.mem_cons_self ..))
  simp only [HttpRequest.seen, Seen.mk.injEq] at lines ⊢
  exact ⟨method, path, rfl, lines, body⟩

/-- A settled request that is moved is held by its new buffer, string by string. -/
theorem Settled.holds_move : ∀ t ∈ (req.move mem).texts, mem.Holds t := by
  have moved {t : Text} (member : t ∈ req.texts) : mem.Holds (t.move req.mem mem) :=
    (settled.holds member).move same
  intro t member
  simp only [HttpRequest.texts, List.mem_cons] at member
  rcases member with rfl | rfl | rfl | line
  · exact moved (List.mem_cons_self ..)
  · exact moved (List.mem_cons_of_mem _ (List.mem_cons_self ..))
  · by_cases null : req.body = 0
    · exact fun some_len => absurd (bodyText_move settled null mem).1 some_len
    · have whole : (req.move mem).bodyText = req.bodyText.move req.mem mem := by
        simp only [HttpRequest.bodyText, HttpRequest.move, if_neg null, Text.move]
      rw [whole]
      exact moved (by simp [HttpRequest.texts])
  · simp only [HttpRequest.move, List.flatMap_map, List.mem_flatMap] at line
    obtain ⟨h, header, which⟩ := line
    obtain ⟨name, val⟩ := mem_texts header
    simp only [List.mem_cons, List.not_mem_nil, or_false] at which
    rcases which with rfl | rfl
    · exact moved name
    · exact moved val

/-- An address inside a block that NULL is not in is not NULL. -/
theorem body_move (size : mem.base.toNat ≠ 0) (inside : mem.base.toNat + mem.size ≤ 2 ^ 64)
    : (req.move mem).body = 0 ↔ req.body = 0 := by
  simp only [HttpRequest.move]
  by_cases null : req.body = 0
  · simp [null]
  · have held := settled.inside req.bodyText (by simp [HttpRequest.texts]) null
    have some_len : req.bodyLen.toNat ≠ 0 := fun zero =>
      settled.bodied null (UInt64.toNat_inj.mp zero)
    have cur := congrArg List.length same
    have extent := mem.cur_le_size
    rw [Membuf.length_filled, Membuf.length_filled] at cur
    simp only [HttpRequest.bodyText, Membuf.offset] at held
    rw [if_neg null]
    refine iff_of_false ?_ null
    intro zero
    have sum := congrArg UInt64.toNat zero
    -- the body ends inside the block, so the address does not wrap
    rw [UInt64.toNat_add, Nat.mod_eq_of_lt (by omega)] at sum
    change mem.base.toNat + _ = 0 at sum
    omega

end Moving

/-- Every request that fits a fresh buffer survives export and import, wherever the buffers
are.
-/
theorem httpRequest_survives (req : HttpRequest) (settled : Settled req)
    (fits : req.mem.cur ≤ requestBufferSize) (block grown : Block)
    (placed : block.base.toNat ≠ 0 ∧ block.base.toNat + requestBufferSize ≤ 2 ^ 64)
    : ∃ after,
      httpRequestImport (httpRequestInit block) (httpRequestExport req) grown = some after
      ∧ SameRequest req after := by
  have room : req.mem.filled.length ≤ (httpRequestInit block).mem.avail := by
    rw [Membuf.length_filled]
    exact fits
  obtain ⟨mem, consumed, filled, -, -, size, base⟩ := Membuf.consume_receive room
  have same : mem.filled = req.mem.filled := filled
  have small : req.mem.cur < 2 ^ 64 := by
    have bound : requestBufferSize < 2 ^ 64 := by decide
    omega
  refine ⟨req.move mem, import_export settled small room grown consumed, ?_⟩
  have held := settled.holds_move same
  exact {
    filled := same
    nheaders := List.length_map _
    body := body_move settled same (base ▸ placed.1) (by rw [base, size]; exact placed.2)
    bodyLen := rfl
    seen := settled.seen_move same
    readable := fun t member => Option.isSome_iff_exists.mpr ⟨_, (held t member).text⟩
    inside := held
  }

section Sample

/-- "PUT /k HTTP/1.1", a header that goes on in a second line, and a body of two bytes. -/
def sampleTransferBytes : Bytes :=
  [0x50, 0x55, 0x54, 0x20, 0x2f, 0x6b, 0x20, 0x48, 0x54, 0x54, 0x50, 0x2f, 0x31, 0x2e, 0x31,
    0x0a, 0x61, 0x3a, 0x62, 0x0a, 0x20, 0x63, 0x0a, 0x0a, 0x78, 0x79]

def sampleTransfer : HttpRequest where
  mem := {
    base := 4096
    mem := fun i => sampleTransferBytes.getD i 0
    size := 8192
    prev := 0
    cur := 26
    prev_le_cur := by decide
    cur_le_size := by decide
  }
  minorVersion := 1
  method := ⟨4096, 3⟩
  path := ⟨4100, 2⟩
  headers := [⟨⟨4112, 1⟩, ⟨4114, 1⟩⟩, ⟨.null, ⟨4116, 2⟩⟩]
  body := 4120
  bodyLen := 2

/-- The request is settled, string by string. -/
theorem settled_sampleTransfer : Settled sampleTransfer :=
  ⟨by decide, by decide, by decide +kernel, by decide +kernel, fun _ => by decide⟩

/-- Its folded line and its body survive a move to another address. -/
theorem httpRequest_survives_sample
    : ∃ after,
      httpRequestImport (httpRequestInit ⟨65536, fun _ => 0⟩)
        (httpRequestExport sampleTransfer) ⟨0, fun _ => 0⟩ = some after
      ∧ SameRequest sampleTransfer after :=
  httpRequest_survives sampleTransfer settled_sampleTransfer (by decide) _ _
    ⟨by decide, by decide⟩

end Sample

end PrismHTTP.Server
