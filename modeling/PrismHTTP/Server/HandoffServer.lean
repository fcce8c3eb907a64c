import PrismHTTP.Server.Membuf

/-! The handoff connection, from the writers' frames to `on_read`.
A frame is a length in network order, padding that the writer leaves as the allocator gave
it, and the serialized message. The reader keeps the unfinished tail at the buffer's start.
-/

namespace PrismHTTP.Server
open MemoryBlock

/-- The serializer of handoff messages: a serialized message parses back to itself. -/
structure Protobuf (M : Type) where
  serializeToString : M → Bytes
  parseFromString : Bytes → Option M
  parse_serialize : ∀ msg, parseFromString (serializeToString msg) = some msg

variable {M : Type}

/-- `htonl` as the four bytes it leaves in memory; longer lengths are truncated. -/
def htonl (length : Nat) : Bytes :=
  [UInt8.ofNat (length / 16777216), UInt8.ofNat (length / 65536), UInt8.ofNat (length / 256),
    UInt8.ofNat length]

def ntohl : Bytes → Nat
  | [b3, b2, b1, b0] => ((b3.toNat * 256 + b2.toNat) * 256 + b1.toNat) * 256 + b0.toNat
  | _ => 0

def padlen (length : Nat) : Nat := if length % 8 = 0 then 0 else 8 - length % 8

/-- The two buffers handed to `uv_write`. The padding is the part of the header's block that
the writer leaves as allocated.
-/
def writeFrame (pb : Protobuf M) (hoReq : M) (header : Block) : Bytes :=
  let serializedData := pb.serializeToString hoReq
  (htonl serializedData.length ++ load header.fresh 4 (padlen serializedData.length))
    ++ serializedData

/-- The exporter's frame. -/
def afterRealClose (pb : Protobuf M) (hoReq : M) (header : Block) : Bytes :=
  writeFrame pb hoReq header

/-- The frame of a server that passes an imported flow on. -/
def forwardProtoStates (pb : Protobuf M) (hoReq : M) (header : Block) : Bytes :=
  writeFrame pb hoReq header

/-- `http_handoff_client_socket`, with what the peer observes: the messages given to
`phttp_on_handoff`, the end of the highest byte `on_read` used past `cur`, if any, and
whether the process has aborted. `received` is the stream so far, and influences no step.
-/
structure HttpHandoffClientSocket (M : Type) where
  reqMem : Membuf
  handoffs : List M
  overread : Bool
  closed : Bool
  crashed : Bool
  received : Bytes

def httpHandoffClientSocketInit (M : Type) (block : Block) : HttpHandoffClientSocket M where
  reqMem := .init block 5000000
  handoffs := []
  overread := false
  closed := false
  crashed := false
  received := []

def onAlloc (conn : HttpHandoffClientSocket M) (block : Block) : HttpHandoffClientSocket M :=
  { conn with reqMem := conn.reqMem.makeRoom block }

/-- The local variables of `on_read`'s loop, as offsets, and what the loop has done so far. -/
structure Scan (M : Type) where
  cursor : Nat
  handoffs : List M
  /-- The end of the highest byte used. -/
  extent : Nat
  crashed : Bool

/-- Two pointers into one block, subtracted as `uintptr_t`. -/
def ptrDiff (a b : Nat) : UInt64 := .ofNat a - .ofNat b

inductive Turn (M : Type) where
  | leave (s : Scan M)
  | again (s : Scan M)

/-- The body of `on_read`'s loop. Its first test subtracts as unsigned, its second as signed
numbers. A failed assertion and a read outside the block both end the process.
-/
def scanFrame (pb : Protobuf M) (buf : Membuf) (s : Scan M) : Turn M :=
  if ptrDiff buf.cur s.cursor < 4 then
    .leave s
  else if buf.size < s.cursor + 4 then
    .leave { s with crashed := true }
  else
    let buflen := ntohl (load buf.mem s.cursor 4)
    let s := { s with extent := max s.extent (s.cursor + 4) }
    if (buf.cur : Int) - s.cursor < (UInt32.ofNat (buflen + padlen buflen)).toNat then
      .leave s
    else
      let cursor := s.cursor + 4 + padlen buflen
      let s := { s with extent := max s.extent (cursor + buflen) }
      if buf.size < cursor + buflen then
        .leave { s with crashed := true }
      else
        match pb.parseFromString (load buf.mem cursor buflen) with
        | none => .leave { s with crashed := true }
        | some req =>
            .again { s with cursor := cursor + buflen, handoffs := s.handoffs ++ [req] }

/-- A frame is taken only from a cursor not past `cur`, and moves it on. -/
theorem scanFrame_again {pb : Protobuf M} {buf : Membuf} {s next : Scan M}
    (h : scanFrame pb buf s = .again next)
    : s.cursor ≤ buf.cur ∧ s.cursor < next.cursor := by
  simp only [scanFrame] at h
  split at h
  · cases h
  split at h
  · cases h
  split at h
  · cases h
  next enough =>
    split at h
    · cases h
    split at h
    · cases h
    · obtain rfl := Turn.again.inj h
      exact ⟨by omega, by simp only; omega⟩

def scan (pb : Protobuf M) (buf : Membuf) (s : Scan M) : Scan M :=
  match _h : scanFrame pb buf s with
  | .leave last => last
  | .again next => scan pb buf next
termination_by buf.cur + 1 - s.cursor
decreasing_by
  have progress := scanFrame_again (by assumption)
  omega

/-- `on_read`, after the event loop has stored the data that `nread` announces. A cursor
past `cur` makes `rem` wrap around, and `memmove` runs off the heap.
-/
def onRead (pb : Protobuf M) (conn : HttpHandoffClientSocket M) (nread : Int)
    : HttpHandoffClientSocket M :=
  if nread = 0 then
    conn
  else if nread < 0 then
    { conn with closed := true }
  else
    match conn.reqMem.consume nread.toNat with
    | none => { conn with crashed := true }
    | some buf =>
        let s := scan pb buf { cursor := 0, handoffs := conn.handoffs, extent := 0, crashed := false }
        let conn :=
          { conn with
            handoffs := s.handoffs
            overread := conn.overread || decide (buf.cur < s.extent) }
        if s.crashed ∨ buf.cur < s.cursor then
          { conn with reqMem := buf, crashed := true }
        else
          let rem := buf.cur - s.cursor
          let moved := (buf.moveDown s.cursor rem).reset
          { conn with reqMem := (moved.consume rem).getD moved }

/-- The connection when `on_read` is called: `on_alloc` made room, and the data is there. -/
def HttpHandoffClientSocket.arrive (conn : HttpHandoffClientSocket M) (read : Read)
    : HttpHandoffClientSocket M :=
  let offered := onAlloc conn read.block
  { offered with
    reqMem := offered.reqMem.receive read.data
    received := conn.received ++ read.data }

/-- A read happens only while the process lives and the connection is open, brings at least
one byte of the stream and fits the space offered.
-/
def HttpHandoffClientSocket.read? (pb : Protobuf M) (stream : Bytes)
    (conn : HttpHandoffClientSocket M) (read : Read) : Option (HttpHandoffClientSocket M) :=
  if conn.crashed = false ∧ conn.closed = false ∧ read.data ≠ []
      ∧ read.data.length ≤ (onAlloc conn read.block).reqMem.avail
      ∧ conn.received ++ read.data <+: stream then
    some (onRead pb (conn.arrive read) read.data.length)
  else
    none

end PrismHTTP.Server
