import Mathlib.Data.List.Forall2
import PrismHTTP.Server.Reception

/-! The strings of a request while its body is received.
The two callbacks of a read are steps of their own here, so that the request is also seen
between them, when the buffer has grown and nothing has been read yet. `membuf_grow` corrects
the buffer's own pointers after `realloc`, but not those in the request.
-/

namespace PrismHTTP.Server
open MemoryBlock Transition HttpClientSocket

variable {phr : PhrParseRequest}

inductive ReadEvent where
  /-- `phttp_on_alloc`, with the block `realloc` returns if it is called -/
  | alloc (block : Block)
  /-- `phttp_on_read` -/
  | read (data : Bytes)

/-- A connection that receives a request; `offered` between the two callbacks. -/
structure Reading where
  hcs : HttpClientSocket
  offered : Bool

namespace Reading

/-- The connection when `phttp_on_read` is called. -/
def stored (hcs : HttpClientSocket) (data : Bytes) : HttpClientSocket :=
  { hcs with
    req := { hcs.req with mem := hcs.req.mem.receive data }
    received := hcs.received ++ data }

/-- The callbacks alternate while the connection is open and bytes of the request are to
come. The bytes fit the space offered; no block is larger than `PTRDIFF_MAX`.
-/
def next? (phr : PhrParseRequest) (request : Bytes) (s : Reading) : ReadEvent → Option Reading
  | .alloc block =>
      if s.offered = false ∧ s.hcs.closed = false ∧ s.hcs.crashed = false
          ∧ s.hcs.received.length < request.length then
        some ⟨s.hcs.phttpOnAlloc block, true⟩
      else
        none
  | .read data =>
      if s.offered = true ∧ data ≠ [] ∧ s.hcs.received ++ data <+: request
          ∧ data.length ≤ s.hcs.req.mem.avail ∧ s.hcs.req.mem.size < 2 ^ 63 then
        some ⟨phttpOnRead phr (stored s.hcs data) data.length, false⟩
      else
        none

end Reading

abbrev ReadStep (request : Request phr) : Reading → ReadEvent → Reading → Prop :=
  Fires (Reading.next? phr request.bytes)

/-- The stored string is the one the parser found, in the used part of the buffer. -/
def Denotes (bytes : Bytes) (buf : Membuf) (slice : Slice) (t : Text) : Prop :=
  slice.ofs ≠ none
    → buf.offset t.ptr + t.len ≤ buf.cur ∧ buf.text t = some (slice.read bytes)

/-- The body's address is where the body starts, and all strings are where they were found. -/
structure InPlace (request : Request phr) (s : Reading) : Prop where
  body : request.body ≠ []
    → s.hcs.req.mem.offset s.hcs.req.body = request.block.bytes.length
      ∧ request.block.bytes.length ≤ s.hcs.req.mem.cur
  method : Denotes request.block.bytes s.hcs.req.mem request.block.parsed.method
    s.hcs.req.method
  path : Denotes request.block.bytes s.hcs.req.mem request.block.parsed.path s.hcs.req.path
  headers :
    List.Forall₂
      (fun found stored => Denotes request.block.bytes s.hcs.req.mem found.name stored.name
        ∧ Denotes request.block.bytes s.hcs.req.mem found.val stored.val)
      request.block.parsed.headers s.hcs.req.headers

/-- Where the buffer has to grow, `realloc` extends it in place. -/
def Stays (s : Reading) : ReadEvent → Prop
  | .alloc block => s.hcs.req.mem.avail < 1024 → block.base = s.hcs.req.mem.base
  | .read _ => True

instance (s : Reading) (event : ReadEvent) : Decidable (Stays s event) := by
  cases event <;> unfold Stays <;> infer_instance

section Strings

variable {request : Request phr} {s : Reading} {home : UInt64}

/-- A string stored at the buffer's present address denotes what the parser found, since its
slice is inside the block.
-/
theorem denotes_at {buf : Membuf} {rest : Bytes} (block : HeaderBlock phr)
    (filled : buf.filled = block.bytes ++ rest) {slice : Slice}
    (member : slice ∈ block.parsed.slices)
    : Denotes block.bytes buf slice (slice.at buf.base) := by
  intro found
  refine ⟨?_, text_at block filled member⟩
  obtain ⟨ofs, start⟩ := Option.ne_none_iff_exists'.mp found
  have inside := block.inside slice member ofs start
  have used := length_le_cur block filled
  have short := block.short
  simp only [Slice.at, start, offset_at buf (show ofs < 2 ^ 64 by omega)]
  omega

/-- Strings stored at the buffer's present address are in place. -/
theorem inPlace_of_stored {rest : Bytes}
    (filled : s.hcs.req.mem.filled = request.block.bytes ++ rest)
    (method : s.hcs.req.method = request.block.parsed.method.at s.hcs.req.mem.base)
    (path : s.hcs.req.path = request.block.parsed.path.at s.hcs.req.mem.base)
    (headers : s.hcs.req.headers
      = request.block.parsed.headers.map fun h =>
        ⟨h.name.at s.hcs.req.mem.base, h.val.at s.hcs.req.mem.base⟩)
    (body : request.body ≠ []
      → s.hcs.req.body = s.hcs.req.mem.base + .ofNat request.block.bytes.length)
    : InPlace request s where
  body loaded := by
    have short := request.block.short
    rw [body loaded, offset_at _ (by omega)]
    exact ⟨rfl, length_le_cur request.block filled⟩
  method := method ▸ denotes_at request.block filled (List.mem_cons_self ..)
  path := path ▸ denotes_at request.block filled (List.mem_cons_of_mem _ (List.mem_cons_self ..))
  headers := by
    rw [headers, List.forall₂_map_right_iff, List.forall₂_same]
    intro h member
    obtain ⟨name, val⟩ := mem_slices member
    exact ⟨denotes_at request.block filled name, denotes_at request.block filled val⟩

/-- The body is counted from the buffer's present address, or all has been received. -/
structure Following (request : Request phr) (s : Reading) : Prop where
  inPlace : InPlace request s
  stage : s.hcs.received = request.bytes
    ∨ Counting request s.hcs.req.mem.base
      (s.hcs.req.mem.base + .ofNat request.block.bytes.length) s.hcs

/-- While the body is counted from the buffer's present address, the strings are in place. -/
theorem Counting.following
    (counting : Counting request s.hcs.req.mem.base
      (s.hcs.req.mem.base + .ofNat request.block.bytes.length) s.hcs)
    : Following request s := by
  obtain ⟨rest, begun⟩ := counting.begun
  refine ⟨?_, .inr counting⟩
  exact inPlace_of_stored (counting.filled.trans begun.symm) counting.method counting.path
    counting.headers fun _ => counting.body

/-- An address in the body's place is elsewhere once the buffer has moved. -/
theorem InPlace.base_eq (inPlace : InPlace request s) (loaded : request.body ≠ [])
    (body : s.hcs.req.body = home + .ofNat request.block.bytes.length)
    : s.hcs.req.mem.base = home := by
  have here := (inPlace.body loaded).1
  have short := request.block.short
  have offset : UInt64.ofNat (s.hcs.req.mem.offset s.hcs.req.body)
      = s.hcs.req.body - s.hcs.req.mem.base := by
    rw [Membuf.offset, UInt64.ofNat_toNat]
  rw [here, body] at offset
  grind

end Strings

section Steps

variable {request : Request phr} {s after : Reading}

/-- Receiving the body changes nothing of the request. -/
theorem receiveBody_req (hcs : HttpClientSocket) : (receiveBody hcs).req = hcs.req := by
  unfold receiveBody
  repeat' split
  all_goals rfl

/-- The data behind the used part of the buffer is consumed. -/
theorem read_spec {data : Bytes} (fired : ReadStep request s (.read data) after)
    : s.hcs.received ++ data <+: request.bytes ∧ data ≠ []
      ∧ ∃ mem : Membuf, mem.filled = s.hcs.req.mem.filled ++ data
        ∧ mem.prev = s.hcs.req.mem.cur ∧ mem.base = s.hcs.req.mem.base
        ∧ after.hcs = match s.hcs.httpState with
          | .parsingHeader => parseHeader phr (s.hcs.extend mem data)
          | .receivingBody => receiveBody (s.hcs.extend mem data) := by
  simp only [Fires, Reading.next?] at fired
  split at fired
  case isFalse => cases fired
  case isTrue guard =>
    obtain ⟨-, nonempty, ordered, fits, -⟩ := guard
    obtain rfl := Option.some.inj fired
    have positive := List.length_pos_iff.mpr nonempty
    obtain ⟨mem, consumed, filled, -, prev, -, base⟩ := Membuf.consume_receive fits
    refine ⟨ordered, nonempty, mem, filled, prev, base, ?_⟩
    rw [phttpOnRead, if_neg (by omega), if_neg (by omega), Int.toNat_natCast]
    simp only [Reading.stored, consumed]
    rfl

/-- `phttp_on_alloc` is called while bytes of the request are to come, and only makes room. -/
theorem alloc_spec {block : Block} (fired : ReadStep request s (.alloc block) after)
    : s.hcs.received.length < request.bytes.length
      ∧ s.hcs.closed = false ∧ s.hcs.crashed = false
      ∧ after = ⟨s.hcs.phttpOnAlloc block, true⟩ := by
  simp only [Fires, Reading.next?] at fired
  split at fired
  case isFalse => cases fired
  case isTrue guard =>
    exact ⟨guard.2.2.2, guard.2.1, guard.2.2.1, (Option.some.inj fired).symm⟩

/-- While bytes are to come, the body is being counted. -/
theorem Following.counting (following : Following request s)
    (part : s.hcs.received.length < request.bytes.length)
    : Counting request s.hcs.req.mem.base
      (s.hcs.req.mem.base + .ofNat request.block.bytes.length) s.hcs := by
  rcases following.stage with all | counting
  · rw [all] at part
    exact absurd part (Nat.lt_irrefl _)
  · exact counting

/-- A body that is being counted is not empty: part of the request is still to come. -/
theorem Counting.loaded {home start : UInt64} {hcs : HttpClientSocket}
    (counting : Counting request home start hcs)
    (part : hcs.received.length < request.bytes.length)
    : request.body ≠ [] := by
  intro empty
  have begun := counting.received_le
  rw [Request.length_bytes, empty] at part
  exact absurd part (Nat.not_lt_of_le begun)

/-- A buffer at its old address keeps the request followed. -/
theorem Counting.phttpOnAlloc {block : Block}
    (counting : Counting request s.hcs.req.mem.base
      (s.hcs.req.mem.base + .ofNat request.block.bytes.length) s.hcs)
    (base : (s.hcs.req.mem.makeRoom block).base = s.hcs.req.mem.base)
    : Following request ⟨s.hcs.phttpOnAlloc block, true⟩ := by
  refine Counting.following ?_
  have grown : (s.hcs.phttpOnAlloc block).req.mem = s.hcs.req.mem.makeRoom block := rfl
  simp only [grown, base]
  exact { counting with filled := (Membuf.filled_makeRoom ..).trans counting.filled }

/-- Making room takes the address of the new block exactly when the buffer has to grow. -/
theorem makeRoom_base (buf : Membuf) (block : Block)
    : (buf.makeRoom block).base = if buf.avail < 1024 then block.base else buf.base := by
  unfold Membuf.makeRoom
  split <;> rfl

/-- At the stored address the count is below the body's length until the last byte. -/
theorem onCourse_home {hcs : HttpClientSocket}
    (begun : request.block.bytes.length ≤ hcs.received.length)
    : OnCourse request hcs.req.mem.base hcs := by
  unfold OnCourse
  split
  · next part =>
    have whole := request.length_bytes
    have declared := request.body_length
    have bound := request.block.declaredLen.toNat_lt
    rw [UInt64.sub_self, UInt64.zero_add, UInt64.lt_iff_toNat_lt, UInt64.toNat_ofNat',
      Nat.mod_eq_of_lt (by omega)]
    omega
  · rfl

/-- Bytes counted from the present address leave the request followed. -/
theorem Counting.receiveBody_following {counted : HttpClientSocket} {offered : Bool}
    (counting : Counting request counted.req.mem.base
      (counted.req.mem.base + .ofNat request.block.bytes.length) counted)
    (ordered : counted.received <+: request.bytes)
    : Following request ⟨receiveBody counted, offered⟩ := by
  have followed : Following request ⟨counted, offered⟩ := Counting.following counting
  have req := receiveBody_req counted
  refine ⟨?_, ?_⟩
  · have inPlace := followed.inPlace
    exact ⟨req ▸ inPlace.body, req ▸ inPlace.method, req ▸ inPlace.path,
      req ▸ inPlace.headers⟩
  · rcases receiveBody_aligned counting ordered with ⟨-, -, same⟩ | ⟨all, -, -⟩ | ⟨off, -⟩
    · rw [same]
      exact .inr counting
    · exact .inl ((receiveBody_kept counted).1.trans all)
    · exact absurd (onCourse_home counting.received_le) off

/-- In place, the request is followed through the next callback. -/
theorem Following.next? {event : ReadEvent} (following : Following request s)
    (stays : Stays s event) (fired : ReadStep request s event after)
    : Following request after := by
  cases event with
  | alloc block =>
      obtain ⟨part, -, -, rfl⟩ := alloc_spec fired
      refine (following.counting part).phttpOnAlloc ?_
      rw [makeRoom_base]
      split
      · next low => exact stays low
      · rfl
  | read data =>
      obtain ⟨ordered, nonempty, mem, filled, -, base, result⟩ := read_spec fired
      have longer := ordered.length_le
      have positive := List.length_pos_iff.mpr nonempty
      rw [List.length_append] at longer
      have before := following.counting (by omega)
      have counting := before.extend filled
      rw [before.state] at result
      dsimp only at result
      rw [← base] at counting
      have followed : Following request
          ⟨receiveBody (s.hcs.extend mem data), after.offered⟩ :=
        Counting.receiveBody_following counting ordered
      rw [← result] at followed
      exact followed

/-- Once the buffer has moved under a body, its address is wrong. -/
theorem Following.spoiled {event : ReadEvent} (following : Following request s)
    (moves : ¬ Stays s event) (fired : ReadStep request s event after)
    : ¬ InPlace request after := by
  cases event with
  | read _ => exact absurd trivial moves
  | alloc block =>
      obtain ⟨part, -, -, rfl⟩ := alloc_spec fired
      have counting := following.counting part
      intro inPlace
      -- being in place would mean that the buffer is where it was
      have still := inPlace.base_eq (counting.loaded part) counting.body
      change (s.hcs.req.mem.makeRoom block).base = _ at still
      rw [makeRoom_base] at still
      refine moves fun low => ?_
      rwa [if_pos low] at still

/-- After a read that brings the whole header block the request is followed. -/
theorem Parsing.following {data : Bytes} (parsing : Parsing request s.hcs)
    (empty : s.hcs.received = []) (whole : request.block.bytes.length ≤ data.length)
    (fired : ReadStep request s (.read data) after)
    : Following request after := by
  obtain ⟨ordered, nonempty, mem, filled, prev, base, result⟩ := read_spec fired
  rw [parsing.state] at result
  have begun : request.block.bytes <+: s.hcs.received ++ data := by
    refine List.prefix_of_prefix_length_le (List.prefix_append _ _) ordered ?_
    rw [List.length_append]
    omega
  obtain ⟨bodyless, bodied⟩ := parseHeader_whole parsing filled prev begun
  -- without a body everything has arrived, with one its count starts here
  by_cases none_declared : request.block.declaredLen = 0
  · have no_body := (body_eq_nil_iff request).mpr none_declared
    have all : s.hcs.received ++ data = request.bytes := by
      refine ordered.eq_of_length_le ?_
      rw [request.length_bytes, no_body, List.length_append]
      simp only [List.length_nil]
      omega
    have text : mem.filled = request.block.bytes ++ request.body := by
      rw [filled, parsing.filled, all]
      rfl
    rw [bodyless none_declared] at result
    obtain ⟨hcs, offered⟩ := after
    subst result
    exact ⟨inPlace_of_stored text rfl rfl rfl fun loaded => absurd no_body loaded, .inl all⟩
  · obtain ⟨counted, parsed, received, here, counting⟩ := bodied none_declared
    have start : UInt64.ofNat 0 = 0 := rfl
    rw [empty, List.length_nil, start, UInt64.add_zero, ← here] at counting
    dsimp only at result
    rw [parsed] at result
    have followed : Following request ⟨receiveBody counted, after.offered⟩ :=
      Counting.receiveBody_following counting (received ▸ ordered)
    rw [← result] at followed
    exact followed

end Steps

/-- A request whose header block came whole in the first read has its body's address and all
its strings in place in every later state exactly when no growth of the buffer moves it.
-/
theorem pointers_survive_iff (request : Request phr) (req : HttpRequest) (block : Block)
    (data : Bytes) (offered parsed : Reading) (path : List (ReadEvent × Reading))
    (whole : request.block.bytes.length ≤ data.length)
    (run : Path (ReadStep request) ⟨.fresh req, false⟩
      ((.alloc block, offered) :: (.read data, parsed) :: path))
    : EveryState (InPlace request) parsed path ↔ EveryStep Stays parsed path := by
  cases run with
  | cons allocated run =>
    cases run with
    | cons read rest =>
      obtain ⟨-, -, -, rfl⟩ := alloc_spec allocated
      have fresh := parsing_fresh request req
      have parsing : Parsing request ((HttpClientSocket.fresh req).phttpOnAlloc block) :=
        { fresh with filled := (Membuf.filled_makeRoom ..).trans fresh.filled }
      exact rest.everyState_iff_of_spoiled (parsing.following rfl whole read)
        (fun _ following => following.inPlace)
        (fun _ _ _ following stays fired => following.next? stays fired)
        (fun _ _ _ following moves fired => following.spoiled moves fired)

section Sample

/-- After the header block and one byte of body, less than 1024 bytes are left. -/
def smallBuffer : HttpRequest :=
  { sampleReq with mem := .init ⟨4096, fun _ => 0⟩ 1062 }

def sampleOffered : Reading :=
  ⟨(HttpClientSocket.fresh smallBuffer).phttpOnAlloc ⟨0, fun _ => 0⟩, true⟩

/-- After the first read, of all but two bytes. -/
def sampleParsedState : Reading :=
  ⟨phttpOnRead samplePhr (Reading.stored sampleOffered.hcs (sampleRequest.bytes.take 39)) 39,
    false⟩

/-- The rest of the run, when the buffer grows to the address. -/
def sampleGrowth (next : UInt64) : List (ReadEvent × Reading) :=
  runOf (Reading.next? samplePhr sampleRequest.bytes) sampleParsedState
    [.alloc ⟨next, fun _ => 0⟩, .read (sampleRequest.bytes.drop 39)]

/-- The reads of the example can happen, wherever the buffer is moved to. -/
theorem sampleGrowth_path (next : UInt64)
    : Path (ReadStep sampleRequest) ⟨.fresh smallBuffer, false⟩
      ((.alloc ⟨0, fun _ => 0⟩, sampleOffered)
        :: (.read (sampleRequest.bytes.take 39), sampleParsedState) :: sampleGrowth next) := by
  refine .cons ?_ (.cons ?_ (runOf_path _ _ _))
  · unfold ReadStep Fires Reading.next?
    exact if_pos (by decide +kernel)
  · unfold ReadStep Fires Reading.next?
    exact if_pos (by decide +kernel)

/-- Grown in place. -/
theorem pointers_survive_sample
    : (sampleGrowth 4096).length = 2
      ∧ EveryState (InPlace sampleRequest) sampleParsedState (sampleGrowth 4096) :=
  ⟨by decide +kernel,
    (pointers_survive_iff sampleRequest smallBuffer _ _ _ _ _ (by decide)
      (sampleGrowth_path 4096)).mpr (by decide +kernel)⟩

/-- Grown elsewhere, the body's address is outside the buffer. -/
theorem pointers_dangle
    : ¬ ∀ (request : Request samplePhr) (req : HttpRequest) (block : Block) (data : Bytes)
        (offered parsed : Reading) (path : List (ReadEvent × Reading)),
        request.block.bytes.length ≤ data.length
        → Path (ReadStep request) ⟨.fresh req, false⟩
          ((.alloc block, offered) :: (.read data, parsed) :: path)
        → EveryState (InPlace request) parsed path := by
  intro always
  have inPlace := always sampleRequest smallBuffer _ _ _ _ _ (by decide)
    (sampleGrowth_path 65536)
  have body := inPlace.final.body (by decide)
  exact absurd body.1 (by decide +kernel)

end Sample

end PrismHTTP.Server
