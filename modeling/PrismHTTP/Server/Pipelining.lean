import PrismHTTP.Server.Picohttpparser
import PrismHTTP.Server.Reception

/-! Several requests on one connection, each answered at once.
The buffer is emptied when a response has been written, while reading goes on. A request is
passed to the handler once and in its turn only when it comes alone, after the response
before it has been written.
-/

namespace PrismHTTP.Server
open MemoryBlock Transition HttpClientSocket

/-- A well-formed request without a body. Its last bytes are the empty line. -/
structure Bodyless extends Request phrParseRequest where
  bodyless : body = []
  ended : Phr.isComplete 0 (block.bytes.drop (block.bytes.length - 3)) = .ok ()

/-- What the client sends. -/
def requestStream (requests : List Bodyless) : Bytes := requests.flatMap (·.block.bytes)

/-- A request passed to the handler, by the place of its first byte in the client's stream. -/
structure Dispatch where
  start : Nat
  seen : Seen
  deriving DecidableEq

/-- The requests as they should be passed, when the first one starts at `ofs`. -/
def script (ofs : Nat) : List Bodyless → List Dispatch
  | [] => []
  | r :: rest => ⟨ofs, r.seen⟩ :: script (ofs + r.block.bytes.length) rest

/-- A connection that stays open. `arrived` counts the requests read so far and `writes` the
responses whose write has not been completed.
-/
structure Keepalive where
  hcs : HttpClientSocket
  arrived : Nat
  writes : Nat
  dispatched : List Dispatch

def Keepalive.start (req : HttpRequest) : Keepalive where
  hcs := .fresh req
  arrived := 0
  writes := 0
  dispatched := []

inductive ConnEvent where
  /-- `phttp_on_alloc` and `phttp_on_read`, with that many whole requests. -/
  | read (block : Block) (count : Nat)
  /-- `after_send_http_res` -/
  | sent

/-- The parser starts at `begin`, so the request passed is the one that starts there. -/
def Dispatch.of (hcs : HttpClientSocket) (call : Call) : Dispatch where
  start := hcs.received.length - hcs.req.mem.cur
  seen := call.seen

namespace Keepalive

/-- Each call of the handler is followed by `phttp_send_http_res`, which starts a write. -/
def read? (requests : List Bodyless) (conn : Keepalive) (block : Block) (count : Nat)
    : Option Keepalive :=
  if 0 < count ∧ conn.arrived + count ≤ requests.length then
    let data := requestStream ((requests.drop conn.arrived).take count)
    (conn.hcs.read? phrParseRequest (requestStream requests) ⟨block, data⟩).map fun after =>
      let calls := after.calls.drop conn.hcs.calls.length
      { hcs := after
        arrived := conn.arrived + count
        writes := conn.writes + calls.length
        dispatched := conn.dispatched ++ calls.map (.of after) }
  else
    none

def afterSendHttpRes (conn : Keepalive) : Keepalive :=
  { conn with
    hcs := { conn.hcs with req := httpRequestReset conn.hcs.req }
    writes := conn.writes - 1 }

def next? (requests : List Bodyless) (conn : Keepalive) : ConnEvent → Option Keepalive
  | .read block count => conn.read? requests block count
  | .sent => if conn.writes = 0 then none else some conn.afterSendHttpRes

end Keepalive

abbrev KeepaliveStep (requests : List Bodyless) : Keepalive → ConnEvent → Keepalive → Prop :=
  Fires (Keepalive.next? requests)

/-- The request is passed to the handler, now or in some later state. -/
def Awaited (requests : List Bodyless) (conn : Keepalive) (d : Dispatch) : Prop :=
  ∃ path, Path (KeepaliveStep requests) conn path ∧ d ∈ (final conn path).dispatched

/-- The requests passed are the client's first ones, in order and once each, and on an open
connection none of those received is lost.
-/
structure ExactlyOnce (requests : List Bodyless) (conn : Keepalive) : Prop where
  inOrder : conn.dispatched <+: script 0 requests
  none_lost : conn.hcs.closed = false
    → ∀ d ∈ script 0 (requests.take conn.arrived), Awaited requests conn d

/-- A read brings one request, and no response is being written. -/
def OneAtATime (conn : Keepalive) : ConnEvent → Prop
  | .read _ count => conn.writes = 0 ∧ count = 1
  | .sent => True

instance (conn : Keepalive) (event : ConnEvent) : Decidable (OneAtATime conn event) := by
  cases event <;> unfold OneAtATime <;> infer_instance

section Streams

variable (first : Bodyless) (ofs : Nat) (requests rest : List Bodyless)

/-- A request has at least one byte. -/
theorem Bodyless.bytes_pos : 0 < first.block.bytes.length := by
  have inside := first.block.inside _ (List.mem_cons_self ..) _ first.block.method
  have positive := first.block.method_pos
  omega

/-- The streams of two lists of requests follow each other. -/
theorem requestStream_append
    : requestStream (requests ++ rest) = requestStream requests ++ requestStream rest :=
  List.flatMap_append

/-- The stream of one request is its header block. -/
theorem requestStream_singleton : requestStream [first] = first.block.bytes := by
  simp [requestStream]

/-- The script of two lists of requests is that of the first and, from there on, of the second.
-/
theorem script_append
    : script ofs (requests ++ rest)
      = script ofs requests ++ script (ofs + (requestStream requests).length) rest := by
  induction requests generalizing ofs with
  | nil => rfl
  | cons r requests ih =>
      simp only [List.cons_append, script, ih, requestStream, List.flatMap_cons,
        List.length_append, Nat.add_assoc]

/-- Requests are passed from the places where they start, all before the stream's end. -/
theorem script_start {d : Dispatch} (member : d ∈ script ofs requests)
    : d.start < ofs + (requestStream requests).length := by
  induction requests generalizing ofs with
  | nil => simp [script] at member
  | cons r requests ih =>
      simp only [requestStream, List.flatMap_cons, List.length_append]
      rcases List.mem_cons.mp member with rfl | later
      · have positive := r.bytes_pos
        simp only
        omega
      · have before := ih _ later
        unfold requestStream at before
        omega

end Streams

section Parsing

variable (first : Bodyless) (rest : Bytes)

/-- An empty line stays one whatever follows. -/
theorem Phr.isComplete_append {retCnt : Nat} {text : Bytes}
    (found : Phr.isComplete retCnt text = .ok ())
    : Phr.isComplete retCnt (text ++ rest) = .ok () := by
  -- a scan that has found the end of the head never looks at what is behind it
  fun_induction Phr.isComplete retCnt text with
  | case1 | case2 | case3 => cases found
  | case4 _ _ _ lf two =>
      unfold Phr.isComplete
      simp_all
  | case5 _ _ _ lf one ih =>
      unfold Phr.isComplete
      simp_all
  | case6 _ _ two =>
      unfold Phr.isComplete
      simp [two]
  | case7 _ _ one _ ih =>
      unfold Phr.isComplete
      simp [ih found]
  | case8 _ _ _ cr lf ih =>
      unfold Phr.isComplete
      simp [cr, lf, ih found]

/-- A request at the start of the buffer is parsed, and parsed again when it was seen before. -/
theorem phrParseRequest_first {lastLen : Nat}
    (seen : lastLen = 0 ∨ lastLen = first.block.bytes.length)
    : phrParseRequest (first.block.bytes ++ rest) lastLen
      = ((first.block.bytes.length : Int), first.block.parsed) := by
  have fresh := first.block.complete rest 0 first.bytes_pos
  rcases seen with rfl | rfl
  · exact fresh
  · have short : first.block.bytes.length - 3 ≤ first.block.bytes.length := Nat.sub_le _ _
    have again := Phr.isComplete_append rest first.ended
    rw [← List.drop_append_of_le_length short] at again
    unfold phrParseRequest Phr.phrParse
    rw [if_neg (Nat.ne_of_gt first.bytes_pos), again]
    exact fresh

end Parsing

section OneRead

variable {requests : List Bodyless} {conn after : Keepalive} {block : Block} {count : Nat}

/-- What has arrived on the connection after a read. -/
theorem Keepalive.read?_arrived (h : conn.read? requests block count = some after)
    : 0 < count ∧ conn.arrived + count ≤ requests.length
      ∧ after.arrived = conn.arrived + count
      ∧ conn.hcs.read? phrParseRequest (requestStream requests)
          ⟨block, requestStream ((requests.drop conn.arrived).take count)⟩ = some after.hcs
      ∧ after.writes = conn.writes + (after.hcs.calls.drop conn.hcs.calls.length).length
      ∧ after.dispatched
        = conn.dispatched
          ++ (after.hcs.calls.drop conn.hcs.calls.length).map (.of after.hcs) := by
  unfold Keepalive.read? at h
  split at h
  case isFalse => cases h
  case isTrue room =>
    obtain ⟨hcs, fired, rfl⟩ := Option.map_eq_some_iff.mp h
    exact ⟨room.1, room.2, rfl, fired, rfl, rfl⟩

/-- Parsing the header changes nothing of the buffer. -/
theorem parseHeader_mem {phr : PhrParseRequest} (hcs : HttpClientSocket)
    : (parseHeader phr hcs).req.mem = hcs.req.mem := by
  simp only [parseHeader]
  repeat' split
  · rfl
  · rfl
  · rfl
  · exact (receiveBody_kept _).2

/-- A read on an open connection puts its bytes into the buffer, whatever comes of them. -/
theorem read?_buffered {phr : PhrParseRequest} {request : Bytes} {hcs next : HttpClientSocket}
    {read : Read} (isOpen : hcs.closed = false) (alive : hcs.crashed = false)
    (h : hcs.read? phr request read = some next)
    : next.received = hcs.received ++ read.data
      ∧ next.req.mem.cur = hcs.req.mem.cur + read.data.length := by
  obtain ⟨-, -, mem, filled, -, -, rfl⟩ := read?_open isOpen alive h
  have cur : mem.cur = hcs.req.mem.cur + read.data.length := by
    rw [← Membuf.length_filled, filled, List.length_append, Membuf.length_filled]
  cases hcs.httpState with
  | parsingHeader =>
      exact ⟨parseHeader_received _, (congrArg Membuf.cur (parseHeader_mem _)).trans cur⟩
  | receivingBody =>
      obtain ⟨received, kept⟩ := receiveBody_kept (hcs.extend mem read.data)
      exact ⟨received, (congrArg Membuf.cur kept).trans cur⟩

/-- Nothing has been read, or all that was read are requests without a body. -/
structure Ready (hcs : HttpClientSocket) : Prop where
  isOpen : hcs.closed = false
  alive : hcs.crashed = false
  state : hcs.httpState = .parsingHeader
  body : hcs.req.body = 0
  bodyLen : hcs.req.bodyLen = 0

/-- A read passes the request at the buffer's start to the handler, be it new or not. -/
theorem Ready.read? {hcs next : HttpClientSocket} (ready : Ready hcs) {stream rest : Bytes}
    {read : Read} (first : Bodyless)
    (h : hcs.read? phrParseRequest stream read = some next)
    (text : hcs.req.mem.filled ++ read.data = first.block.bytes ++ rest)
    (begun : hcs.req.mem.filled = [] ∨ hcs.req.mem.filled = first.block.bytes)
    : Ready next ∧ next.received = hcs.received ++ read.data
      ∧ next.req.mem.filled = hcs.req.mem.filled ++ read.data
      ∧ next.calls = hcs.calls ++ [⟨first.seen, (hcs.received ++ read.data).length⟩] := by
  obtain ⟨-, -, mem, filled, prev, -, rfl⟩ := read?_open ready.isOpen ready.alive h
  have whole := filled.trans text
  -- the parser is told of no earlier bytes or of the whole head, and answers the same to both
  have seenLen : mem.prev = 0 ∨ mem.prev = first.block.bytes.length := by
    rw [prev, ← Membuf.length_filled]
    exact begun.imp (congrArg List.length) (congrArg List.length)
  have complete : phrParseRequest mem.filled mem.prev
      = ((first.block.bytes.length : Int), first.block.parsed) := by
    rw [whole]
    exact phrParseRequest_first first rest seenLen
  have declared := (body_eq_nil_iff first.toRequest).mp first.bodyless
  have found := determineBodyLen_at first.block whole { hcs.req with mem := mem } rfl
  rw [declared] at found
  have passed : parseHeader phrParseRequest (hcs.extend mem read.data)
      = callHandler
        { hcs.extend mem read.data with
          req := { hcs.req with mem := mem }.store first.block.parsed } := by
    simp [parseHeader, httpParseRequest, HttpClientSocket.extend, complete, found]
  have seen : ({ hcs.req with mem := mem }.store first.block.parsed).seen = first.seen := by
    refine @seen_eq _ first.toRequest _ _ whole rfl rfl rfl rfl ?_
    simp [HttpRequest.store, ready.bodyLen, Membuf.text, first.bodyless]
  rw [ready.state]
  dsimp only
  rw [passed]
  refine ⟨⟨ready.isOpen, ready.alive, ready.state, ready.body, ready.bodyLen⟩, rfl, filled, ?_⟩
  simp [callHandler, HttpClientSocket.extend, seen]

end OneRead

section Skipping

variable {requests : List Bodyless} {conn after : Keepalive} {event : ConnEvent} {place : Nat}

/-- The parser starts at `begin`, behind the place or before it. Emptying the buffer moves
`begin` behind everything received.
-/
def OutOfReach (place : Nat) (hcs : HttpClientSocket) : Prop :=
  hcs.closed = true ∨ hcs.crashed = true
  ∨ place < hcs.received.length ∧ hcs.req.mem.cur ≤ hcs.received.length
    ∧ hcs.received.length - hcs.req.mem.cur ≠ place

/-- No request was passed from the place, and none can be any more. -/
structure Skipped (place : Nat) (conn : Keepalive) : Prop where
  undispatched : ∀ d ∈ conn.dispatched, d.start ≠ place
  outOfReach : OutOfReach place conn.hcs

/-- A place that is out of reach stays so in every step: a read parses from elsewhere, and a
completed write starts behind it.
-/
theorem Skipped.next? (skipped : Skipped place conn)
    (fired : KeepaliveStep requests conn event after)
    : Skipped place after := by
  obtain ⟨undispatched, outOfReach⟩ := skipped
  cases event with
  | read block count =>
      obtain ⟨-, -, -, stepped, -, dispatched⟩ := Keepalive.read?_arrived fired
      by_cases gone : conn.hcs.closed = true ∨ conn.hcs.crashed = true
      · have same := read?_gone gone stepped
        rw [same, List.drop_length, List.map_nil, List.append_nil] at dispatched
        refine ⟨dispatched ▸ undispatched, ?_⟩
        rw [same]
        exact or_assoc.mp (.inl gone)
      · obtain ⟨isOpen, alive⟩ : conn.hcs.closed = false ∧ conn.hcs.crashed = false := by
          simpa using gone
        obtain ⟨received, cur⟩ := read?_buffered isOpen alive stepped
        have lengths := congrArg List.length received
        rw [List.length_append] at lengths
        -- the parser starts where it did, which is not the place
        obtain ⟨past, inside, apart⟩ := (or_assoc.mpr outOfReach).resolve_left gone
        refine ⟨?_, .inr (.inr ⟨by omega, by omega, by omega⟩)⟩
        intro d member
        rw [dispatched] at member
        rcases List.mem_append.mp member with earlier | now
        · exact undispatched d earlier
        · obtain ⟨call, -, rfl⟩ := List.mem_map.mp now
          simp only [Dispatch.of]
          omega
  | sent =>
      have sent := fired
      simp only [Fires, Keepalive.next?] at sent
      split at sent
      case isTrue => cases sent
      case isFalse =>
        obtain rfl := Option.some.inj sent
        refine ⟨undispatched, ?_⟩
        rcases outOfReach with closed | crashed | ⟨past, -, -⟩
        · exact .inl closed
        · exact .inr (.inl crashed)
        -- the reset buffer starts behind everything received
        · exact .inr (.inr ⟨past, Nat.zero_le _, Nat.ne_of_gt past⟩)

/-- A place that is out of reach stays so in every run. -/
theorem Skipped.not_awaited (skipped : Skipped place conn) {seen : Seen}
    : ¬ Awaited requests conn ⟨place, seen⟩ := by
  rintro ⟨path, run, member⟩
  have still := run.final_of_kept skipped fun _ _ _ kept fired => kept.next? fired
  exact still.undispatched _ member rfl

end Skipping

/-- All that was read was passed on; at most the last request is being answered. -/
structure Clean (requests : List Bodyless) (conn : Keepalive) : Prop where
  ready : Ready conn.hcs
  received : conn.hcs.received = requestStream (requests.take conn.arrived)
  dispatched : conn.dispatched = script 0 (requests.take conn.arrived)
  writing :
    conn.writes = 0 ∧ conn.hcs.req.mem.filled = []
    ∨ conn.writes = 1 ∧ ∃ front last, requests.take conn.arrived = front ++ [last]
      ∧ conn.hcs.req.mem.filled = last.block.bytes

section Clean

variable {requests : List Bodyless} {conn after : Keepalive}

/-- Where all that was read was passed on, the requests passed are those that arrived. -/
theorem Clean.exactlyOnce (clean : Clean requests conn) : ExactlyOnce requests conn where
  inOrder := by
    have whole := script_append 0 (requests.take conn.arrived) (requests.drop conn.arrived)
    rw [List.take_append_drop] at whole
    rw [clean.dispatched, whole]
    exact List.prefix_append _ _
  none_lost _ d member := ⟨[], .nil conn, clean.dispatched ▸ member⟩

/-- Nothing has been read or passed on at the start. -/
theorem clean_start (requests : List Bodyless) (req : HttpRequest)
    : Clean requests (.start req) where
  ready := ⟨rfl, rfl, rfl, rfl, rfl⟩
  received := rfl
  dispatched := rfl
  writing := .inl ⟨rfl, rfl⟩

/-- What a read passes on, when the buffer starts with `first` behind the bytes of `before`. -/
theorem Clean.read? {block : Block} {count : Nat} (clean : Clean requests conn)
    (h : conn.read? requests block count = some after) {before : List Bodyless}
    {first : Bodyless} {rest : Bytes}
    (place : conn.hcs.received.length
      = (requestStream before).length + conn.hcs.req.mem.filled.length)
    (text : conn.hcs.req.mem.filled ++ requestStream ((requests.drop conn.arrived).take count)
      = first.block.bytes ++ rest)
    (begun : conn.hcs.req.mem.filled = [] ∨ conn.hcs.req.mem.filled = first.block.bytes)
    : Ready after.hcs ∧ after.writes = conn.writes + 1
      ∧ after.hcs.received = requestStream (requests.take after.arrived)
      ∧ after.hcs.req.mem.filled = first.block.bytes ++ rest
      ∧ after.dispatched
        = conn.dispatched ++ [⟨(requestStream before).length, first.seen⟩] := by
  obtain ⟨-, room, arrived, stepped, writes, dispatched⟩ := Keepalive.read?_arrived h
  obtain ⟨ready, received, filled, calls⟩ := clean.ready.read? first stepped text begun
  rw [calls, List.drop_left] at writes dispatched
  refine ⟨ready, writes, ?_, filled.trans text, ?_⟩
  · rw [received, clean.received, arrived, List.take_add, requestStream_append]
  · have lengths := congrArg List.length received
    have cur := congrArg List.length filled
    rw [List.length_append] at lengths cur
    rw [Membuf.length_filled] at cur
    rw [dispatched, List.map_singleton, Dispatch.of]
    congr 3
    omega

/-- One request read while no response is being written is passed on in its turn. -/
theorem Clean.next? {event : ConnEvent} (clean : Clean requests conn)
    (alone : OneAtATime conn event) (fired : KeepaliveStep requests conn event after)
    : Clean requests after := by
  cases event with
  -- a read comes only to an idle connection with an empty buffer, so it is one whole request
  | read block count =>
      obtain ⟨idle, rfl⟩ := alone
      have empty : conn.hcs.req.mem.filled = [] := by
        rcases clean.writing with ⟨-, empty⟩ | ⟨busy, -⟩
        · exact empty
        · exact absurd (idle.symm.trans busy) Nat.zero_ne_one
      obtain ⟨-, room, arrived, -, -, -⟩ := Keepalive.read?_arrived fired
      have next := List.drop_eq_getElem_cons (Nat.lt_of_succ_le room)
      generalize requests[conn.arrived] = first at next
      have grown : requests.take after.arrived = requests.take conn.arrived ++ [first] := by
        rw [arrived, List.take_add, next]
        rfl
      obtain ⟨ready, writes, received, filled, dispatched⟩ :=
        @Clean.read? _ _ _ _ _ clean fired (requests.take conn.arrived) first []
          (by rw [clean.received, empty]; rfl)
          (by rw [empty, next]; simp [requestStream]) (.inl empty)
      refine ⟨ready, received, ?_, .inr ⟨by rw [writes, idle], _, first, grown, ?_⟩⟩
      · rw [dispatched, clean.dispatched, grown, script_append, Nat.zero_add]
        rfl
      · rw [filled, List.append_nil]
  -- the write that completes is the only one, and the reset empties the buffer
  | sent =>
      have sent := fired
      simp only [Fires, Keepalive.next?] at sent
      split at sent
      case isTrue => cases sent
      case isFalse busy =>
        obtain rfl := Option.some.inj sent
        have one : conn.writes = 1 := by
          rcases clean.writing with ⟨idle, -⟩ | ⟨one, -⟩
          · exact absurd idle busy
          · exact one
        have ready := clean.ready
        exact ⟨⟨ready.isOpen, ready.alive, ready.state, rfl, rfl⟩, clean.received,
          clean.dispatched, .inl ⟨by simp [Keepalive.afterSendHttpRes, one], rfl⟩⟩

/-- A read of several requests passes on the first; the others are never looked at again. -/
theorem Clean.read?_several {block : Block} {count : Nat} (clean : Clean requests conn)
    (fired : conn.read? requests block count = some after)
    (empty : conn.hcs.req.mem.filled = []) (several : 1 < count)
    : ¬ ExactlyOnce requests after := by
  obtain ⟨-, room, arrived, -, -, -⟩ := Keepalive.read?_arrived fired
  obtain ⟨first, second, tail, next⟩ : ∃ first second tail,
      (requests.drop conn.arrived).take count = first :: second :: tail := by
    have long : ((requests.drop conn.arrived).take count).length = count := by
      rw [List.length_take, List.length_drop]
      omega
    match (requests.drop conn.arrived).take count, long with
    | first :: second :: tail, _ => exact ⟨first, second, tail, rfl⟩
    | [_], long => exact absurd long (Nat.ne_of_lt several)
    | [], long => exact absurd long (by simp only [List.length_nil]; omega)
  have grown : requests.take after.arrived
      = requests.take conn.arrived ++ first :: second :: tail := by
    rw [arrived, List.take_add, next]
  obtain ⟨ready, -, received, filled, dispatched⟩ :=
    @Clean.read? _ _ _ _ _ clean fired (requests.take conn.arrived) first
      (requestStream (second :: tail))
      (by rw [clean.received, empty]; rfl) (by rw [empty, next]; rfl) (.inl empty)
  let place := (requestStream (requests.take conn.arrived)).length + first.block.bytes.length
  have some_first := first.bytes_pos
  have some_second := second.bytes_pos
  -- the second request starts behind the first, where the parser never starts again
  have skipped : Skipped place after := by
    have lengths := congrArg List.length received
    have cur := congrArg List.length filled
    rw [grown, requestStream_append] at lengths
    rw [Membuf.length_filled] at cur
    simp only [requestStream, List.flatMap_cons, List.length_append] at lengths cur
    refine ⟨?_, .inr (.inr ?_)⟩
    · intro d member
      rw [dispatched, clean.dispatched] at member
      rcases List.mem_append.mp member with earlier | now
      · have before := script_start 0 _ earlier
        simp only [place]
        omega
      · obtain rfl := List.mem_singleton.mp now
        simp only [place]
        omega
    · simp only [place, requestStream]
      omega
  intro once
  refine skipped.not_awaited (once.none_lost ready.isOpen ⟨place, second.seen⟩ ?_)
  rw [grown, script_append, script, script, Nat.zero_add]
  exact List.mem_append_right _ (List.mem_cons_of_mem _ (List.mem_cons_self ..))

/-- A read while a response is being written passes the request it answers on again. -/
theorem Clean.read?_busy {block : Block} {count : Nat} (clean : Clean requests conn)
    (fired : conn.read? requests block count = some after) {front : List Bodyless}
    {last : Bodyless} (answered : requests.take conn.arrived = front ++ [last])
    (filled : conn.hcs.req.mem.filled = last.block.bytes)
    : ¬ ExactlyOnce requests after := by
  have place : conn.hcs.received.length
      = (requestStream front).length + last.block.bytes.length := by
    rw [clean.received, answered, requestStream_append, requestStream_singleton,
      List.length_append]
  obtain ⟨-, -, -, -, dispatched⟩ :=
    clean.read? fired (by rw [filled]; exact place) (by rw [filled]) (.inr filled)
  intro once
  have whole := script_append 0 (requests.take conn.arrived) (requests.drop conn.arrived)
  have inOrder := once.inOrder
  rw [List.take_append_drop] at whole
  -- what was passed on last would have to be the next request of the client
  rw [dispatched, clean.dispatched, whole, List.prefix_append_right_inj] at inOrder
  cases remaining : requests.drop conn.arrived with
  | nil =>
      rw [remaining] at inOrder
      exact absurd inOrder.length_le (Nat.not_succ_le_zero 0)
  | cons r rest =>
      rw [remaining, script, List.cons_prefix_cons] at inOrder
      have same := congrArg Dispatch.start inOrder.1
      have positive := last.bytes_pos
      rw [answered, requestStream_append, requestStream_singleton, List.length_append] at same
      simp only at same
      omega

/-- Any other read passes a request on twice or loses one. -/
theorem Clean.spoiled {event : ConnEvent} (clean : Clean requests conn)
    (crowded : ¬ OneAtATime conn event) (fired : KeepaliveStep requests conn event after)
    : ¬ ExactlyOnce requests after := by
  cases event with
  | sent => exact absurd trivial crowded
  | read block count =>
      rcases clean.writing with ⟨idle, empty⟩ | ⟨-, front, last, answered, filled⟩
      · have positive := (Keepalive.read?_arrived fired).1
        have several : count ≠ 1 := fun one => crowded ⟨idle, one⟩
        exact clean.read?_several fired empty (by omega)
      · exact clean.read?_busy fired answered filled

end Clean

/-- Whatever the requests, the reads and the order of events, each request is passed to the
handler exactly once in every state of a run exactly when each read brings one request and
none comes before the last response has been written.
-/
theorem exactlyOnce_iff_oneAtATime (requests : List Bodyless) (req : HttpRequest)
    (path : List (ConnEvent × Keepalive))
    (run : Path (KeepaliveStep requests) (.start req) path)
    : EveryState (ExactlyOnce requests) (.start req) path
      ↔ EveryStep OneAtATime (.start req) path :=
  run.everyState_iff_of_spoiled (clean_start requests req)
    (fun _ clean => clean.exactlyOnce) (fun _ _ _ clean alone => clean.next? alone)
    (fun _ _ _ clean crowded => clean.spoiled crowded)

section Sample

/-- "GET / HTTP/1.1" and the empty line. -/
def sampleGetBytes : Bytes :=
  [0x47, 0x45, 0x54, 0x20, 0x2f, 0x20, 0x48, 0x54, 0x54, 0x50, 0x2f, 0x31, 0x2e, 0x31,
    0x0d, 0x0a, 0x0d, 0x0a]

def sampleGetBlock : HeaderBlock phrParseRequest where
  bytes := sampleGetBytes
  parsed := ⟨⟨some 0, 3⟩, ⟨some 4, 1⟩, 1, []⟩
  incomplete n lastLen later short := by
    have all : ∀ n < 18, ∀ lastLen < n,
        (phrParseRequest (sampleGetBytes.take n) lastLen).1 = -2 := by decide +kernel
    exact all n short lastLen later
  complete extra lastLen seen := by
    have parsed : Phr.parseRequest ⟨0, sampleGetBytes ++ extra⟩
        = (.ok ⟨18, extra⟩, ⟨⟨some 0, 3⟩, ⟨some 4, 1⟩, 1, []⟩) := rfl
    have ended : ∀ k < 18, Phr.isComplete 0 (sampleGetBytes.drop (k - 3)) = .ok () := by
      decide +kernel
    have found := Phr.isComplete_append extra (ended lastLen seen)
    rw [← List.drop_append_of_le_length (by simp [sampleGetBytes] at seen ⊢; omega)] at found
    unfold phrParseRequest Phr.phrParse
    rw [found, parsed, ite_self]
    rfl
  short := by decide
  headers_le := by decide
  inside := by decide
  null_len := by decide
  methodOfs := 0
  method := rfl
  method_pos := by decide
  leading _ member := by cases member
  method_start := by
    intro b first
    obtain rfl := Option.some.inj first
    rfl
  values := by simp

def sampleGet : Bodyless where
  block := sampleGetBlock
  body := []
  body_length := rfl
  bodyless := rfl
  ended := rfl

def sampleConnection : HttpRequest where
  mem := .init ⟨4096, fun _ => 0⟩ 5000000
  minorVersion := 0
  method := .null
  path := .null
  headers := []
  body := 0
  bodyLen := 0

def sampleKeepalive (events : List ConnEvent) : List (ConnEvent × Keepalive) :=
  runOf (Keepalive.next? [sampleGet, sampleGet]) (.start sampleConnection) events

/-- The events of the example can happen. -/
theorem sampleKeepalive_path (events : List ConnEvent)
    : Path (KeepaliveStep [sampleGet, sampleGet]) (.start sampleConnection)
      (sampleKeepalive events) :=
  runOf_path _ _ events

/-- Two requests, the second after the first response: both are passed on. -/
theorem exactlyOnce_sample
    : let path := sampleKeepalive [.read ⟨0, fun _ => 0⟩ 1, .sent, .read ⟨0, fun _ => 0⟩ 1]
      path.length = 3
      ∧ EveryState (ExactlyOnce [sampleGet, sampleGet]) (.start sampleConnection) path :=
  ⟨by decide +kernel,
    (exactlyOnce_iff_oneAtATime _ _ _ (sampleKeepalive_path _)).mpr (by decide +kernel)⟩

/-- The second before the first response is written: the first is passed on again. -/
theorem exactlyOnce_fails
    : ¬ ∀ (requests : List Bodyless) (req : HttpRequest)
        (path : List (ConnEvent × Keepalive)),
        Path (KeepaliveStep requests) (.start req) path
        → EveryState (ExactlyOnce requests) (.start req) path := by
  intro always
  have once := always [sampleGet, sampleGet] sampleConnection
    _ (sampleKeepalive_path [.read ⟨0, fun _ => 0⟩ 1, .read ⟨0, fun _ => 0⟩ 1])
  have starts := once.final.inOrder.map Dispatch.start
  have places : (script 0 [sampleGet, sampleGet]).map Dispatch.start = [0, 18] := rfl
  rw [places] at starts
  exact absurd starts (by decide +kernel)

end Sample

end PrismHTTP.Server
