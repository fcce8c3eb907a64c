import PrismHTTP.Kvs.Chain
import PrismHTTP.Kvs.Convergence
import PrismHTTP.Kvs.Responses
import PrismHTTP.Kvs.Sharding
import PrismHTTP.Library.PartitionedMap

/-! The sharded store: the proxy and its backends taken together, and the map they stand for.
Whoever reads a request, it goes through the proxy to the backend its path hashes to. Messages
may be delivered in any order, and a database call may fail with or without its effect.
-/

namespace PrismHTTP.Kvs
open PrismHTTP.Server MemoryBlock Transition PartitionedMap

/-- The status of a database call. A write that failed may have been applied all the same. -/
inductive DbStatus where
  | ok
  | error (applied : Bool)
  deriving DecidableEq

def DbStatus.applied : DbStatus → Bool
  | .ok => true
  | .error applied => applied

def Store.dbUnder (store : Store) : DbStatus → LevelDb
  | .ok => store.db
  | .error _ => ⟨fun _ => .failed, fun _ _ => false, fun _ => false⟩

def Store.after (store : Store) (calls : List DbCall) (status : DbStatus) : Store :=
  if status.applied then calls.foldl Store.apply store else store

namespace Sharded

/-! ## The program -/

/-- The bytes of a buffer by their addresses. -/
def memoryOf (buf : Membuf) : Memory := fun a => buf.mem (buf.offset (.ofNat a))

/-- The proxy as it was started, and which backend each entry of its list leads to. -/
structure Shards where
  proxy : KvsProxy
  listed : Nat → Nat

/-- What the servers are given for handling one request: new blocks, the turn in the table of
connections, and how the database's calls end.
-/
structure Turn where
  reqBlock : Block
  reqGrown : Block
  head : Block
  body : Block
  grown : Block
  pool : Pool
  status : DbStatus

namespace Shards

/-- The server's request handler; the proxy's reads the path where the request has it. -/
def handler (d : Shards) (node : Node) (store : Store) (turn : Turn) (req : HttpRequest)
    (kvs : KvsRequest) (res : HttpResponse) (imported : Bool) : Option Handled :=
  match node with
  | .proxy =>
      (d.proxy.requestHandler (memoryOf req.mem) req.path.ptr.toNat req.path.len).map fun ans =>
        ⟨{ answer res ans.status ans.reason with
            handoffData := some (.entry ans.handoffData.toNat) }, turn.pool, []⟩
  | .backend _ =>
      kvsBackendRequestHandler turn.pool (store.dbUnder turn.status) turn.grown kvs res imported

/-- Where `handoff_data` leads from a server. -/
def target (d : Shards) : Node → Option HandoffData → Option Node
  | .proxy, some (.entry i) => some (.backend (d.listed i))
  | .backend _, some (.entry _) => some .proxy
  | _, some .nextServer | _, none => none

end Shards

/-- A response given to `phttp_send_http_res`, with the request it answers. -/
structure Answer where
  id : Nat
  node : Node
  asked : KvsRequest
  status : DbStatus
  res : HttpResponse

/-- The requests read so far, the messages under way, the databases and the responses. A
request's id is its place among the requests.
-/
structure System where
  requests : List HttpRequest
  inFlight : List Message
  stores : Nat → Store
  answered : List Answer

def System.start (content : Nat → Store) : System := ⟨[], [], content, []⟩

/-- A request in a buffer that lies in the address space. -/
abbrev ReadRequest := { req : HttpRequest // Settled req ∧ req.mem.size ≤ 2 ^ 64 }

inductive ShardEvent where
  /-- `phttp_on_read` has a request complete, on a connection of that server. -/
  | read (node : Node) (req : ReadRequest) (res : HttpResponse) (turn : Turn)
  /-- `phttp_on_handoff` of the message at that place. -/
  | deliver (index : Nat) (turn : Turn)

namespace System

def storeAt (s : System) : Node → Store
  | .proxy => fun _ => none
  | .backend k => s.stores k

/-- The calls are made to the server's own database. -/
def perform (s : System) (calls : List DbCall) (status : DbStatus) : Node → System
  | .proxy => s
  | .backend k =>
      { s with stores := Function.update s.stores k ((s.stores k).after calls status) }

/-- The request goes on to where `handoff_data` leads. -/
def handOver (d : Shards) (s : System) (node : Node) (id : Nat) (http : HTTPReq)
    (res : HttpResponse) : Option System :=
  (d.target node res.handoffData).map fun dest =>
    { s with inFlight := s.inFlight ++ [⟨dest, id, http⟩] }

def respond (s : System) (ans : Answer) : System := { s with answered := s.answered ++ [ans] }

/-- The end of `phttp_on_read`; the handoff it starts sends the exported request. -/
def onRead (d : Shards) (s : System) (node : Node) (req : HttpRequest) (res : HttpResponse)
    (turn : Turn) : Option System := do
  let kvs ← viewOf req
  let handled ← d.handler node (s.storeAt node) turn req kvs (httpResponseReset res) false
  let id := s.requests.length
  let s := { s.perform handled.calls turn.status node with requests := s.requests ++ [req] }
  if handled.res.status = 600 then
    s.handOver d node id (httpRequestExport req) handled.res
  else
    return s.respond ⟨id, node, kvs, turn.status, handled.res⟩

/-- `phttp_on_handoff`: `forward_proto_states` serialises the message it was given. -/
def onHandoff (d : Shards) (s : System) (m : Message) (turn : Turn) : Option System := do
  let req ← httpRequestImport (httpRequestInit turn.reqBlock) m.http turn.reqGrown
  let kvs ← viewOf req
  let handled ← d.handler m.dest (s.storeAt m.dest) turn req kvs
    (httpResponseInit turn.head turn.body) true
  let s := s.perform handled.calls turn.status m.dest
  if handled.res.status ≤ 500 then
    return s.respond ⟨m.id, m.dest, kvs, turn.status, handled.res⟩
  else if handled.res.status = 600 then
    s.handOver d m.dest m.id m.http handled.res
  else
    none

def next? (d : Shards) (s : System) : ShardEvent → Option System
  | .read node req res turn => s.onRead d node req.1 res turn
  | .deliver index turn => do
      let m ← s.inFlight[index]?
      onHandoff d { s with inFlight := s.inFlight.eraseIdx index } m turn

end System

/-! ## One map for all -/

/-- What a client is answered. -/
structure Reply where
  status : UInt32
  reason : String
  headers : List HttpField
  body : Bytes

def getReply : DbStatus → Option Bytes → Reply
  | .ok, some val => ⟨200, "OK", [], val⟩
  | .ok, none => ⟨404, "Not Found", [], []⟩
  | .error _, _ => ⟨500, "LevelDB GET Failed\n", [], []⟩

def putReply : DbStatus → Reply
  | .ok => ⟨200, "OK", [], []⟩
  | .error _ => ⟨500, "LevelDB PUT Failed\n", [], []⟩

def deleteReply : DbStatus → Reply
  | .ok => ⟨204, "NoContent\n", [⟨literal "Connection", literal "close"⟩], []⟩
  | .error _ => ⟨500, "LevelDB DELETE Failed\n", [], []⟩

/-- What a request means to a single map. -/
def serve (op : KvsRequest × DbStatus) : Store → Reply × Store :=
  let (req, status) := op
  if req.MethodIs "GET" then
    fun store => (getReply status (store req.path), store)
  else if req.MethodIs "PUT" then
    if req.body = [] then
      fun store => (⟨400, "PUT need to have body\n", [], []⟩, store)
    else
      fun store =>
        (putReply status,
          if status.applied then Function.update store req.path (some req.body) else store)
  else if req.MethodIs "DELETE" then
    fun store =>
      (deleteReply status,
        if status.applied then Function.update store req.path none else store)
  else
    fun store => (⟨405, "Method Not Allowed\n", [], []⟩, store)

/-- The response says what the reply does. -/
structure Reply.Of (reply : Reply) (res : HttpResponse) : Prop where
  status : res.status = reply.status
  reason : res.reason = literal reply.reason
  headers : res.headers = reply.headers
  body : res.bodyMem.filled = reply.body

/-! ## The path in memory -/

/-- Addresses from a pointer on are the offsets from the pointer's on, as long as these do not
wrap.
-/
theorem load_memoryOf (buf : Membuf) (ptr : UInt64) {n : Nat}
    (inside : buf.offset ptr + n ≤ 2 ^ 64)
    : load (memoryOf buf) ptr.toNat n = load buf.mem (buf.offset ptr) n := by
  refine List.ext_getElem (by simp) fun i short _ => ?_
  have early : i < n := by simpa using short
  have offset : buf.offset (UInt64.ofNat (ptr.toNat + i)) = buf.offset ptr + i := by
    unfold Membuf.offset at inside ⊢
    have apart : UInt64.ofNat (ptr.toNat + i) - buf.base = ptr - buf.base + UInt64.ofNat i := by
      rw [UInt64.ofNat_add, UInt64.ofNat_toNat]
      grind
    have small : i < 2 ^ 64 := by omega
    rw [apart, UInt64.toNat_add, UInt64.toNat_ofNat', Nat.mod_eq_of_lt small]
    exact Nat.mod_eq_of_lt (by omega)
  simp only [load, List.getElem_map, List.getElem_range', Nat.one_mul, memoryOf, offset]

/-- The proxy hashes the path that the handlers see. -/
theorem jenkinsHash_path {req : HttpRequest} {kvs : KvsRequest} (view : viewOf req = some kvs)
    (small : req.mem.size ≤ 2 ^ 64)
    : jenkinsHash (memoryOf req.mem) req.path.ptr.toNat req.path.len 0
      = jenkinsBytes kvs.path 0 := by
  obtain ⟨path, read, view⟩ := Option.bind_eq_some_iff.mp view
  obtain ⟨body, -, view⟩ := Option.bind_eq_some_iff.mp view
  obtain rfl := Option.some.inj view
  rw [jenkinsHash_eq_bytes]
  refine congrArg (jenkinsBytes · 0) ?_
  unfold Membuf.text at read
  split at read
  · next empty =>
    obtain rfl := Option.some.inj read
    rw [empty, load_zero]
  · split at read
    · next inside =>
      obtain rfl := Option.some.inj read
      exact load_memoryOf req.mem req.path.ptr (Nat.le_trans inside small)
    · cases read

namespace Shards

/-- The slot of the proxy's list that a path hashes to. -/
def slot (d : Shards) (path : Bytes) : UInt32 := jenkinsBytes path 0 % d.proxy.nbackends

/-- The backend responsible for a path. -/
def shard (d : Shards) (path : Bytes) : Nat := d.listed (d.slot path).toNat

/-- The proxy hands every request to the backend its path hashes to, if its assertion holds. -/
theorem handler_proxy (d : Shards) {req : HttpRequest} {kvs : KvsRequest}
    (view : viewOf req = some kvs) (small : req.mem.size ≤ 2 ^ 64) (store : Store) (turn : Turn)
    (res : HttpResponse) (imported : Bool)
    : d.handler .proxy store turn req kvs res imported
      = if d.proxy.nbackends ≠ 0 ∧ d.slot kvs.path ≤ 4 then
          some ⟨handoffTo res (.entry (d.slot kvs.path).toNat), turn.pool, []⟩
        else
          none := by
  rw [handler, requestHandler_eq, jenkinsHash_path view small, slot]
  split <;> rfl

end Shards

/-! ## A backend and the map -/

/-- What one request does depends on the value at its path only and changes no other, by cases
on the method.
-/
theorem serve_localTo (op : KvsRequest × DbStatus) : LocalTo op.1.path (serve op) := by
  unfold serve
  dsimp only
  split
  · exact .read _ (getReply op.2)
  · split
    · split
      · exact .read _ fun _ => _
      · exact .write _ _ _ _
    · split
      · exact .write _ _ _ _
      · exact .read _ fun _ => _

section Backend

variable {store : Store} {status : DbStatus} {pool : Pool} {grown : Block} {req : KvsRequest}
  {res : HttpResponse} {handled : Handled}

/-- An answer without a body, to an untouched response. -/
theorem reply_answer (untouched : Untouched res) (status : UInt32) (reason : String)
    : Reply.Of ⟨status, reason, [], []⟩ (answer res status reason) := by
  refine ⟨rfl, rfl, untouched.headers, ?_⟩
  change res.bodyMem.filled = []
  rw [Membuf.filled, untouched.body.1, load_zero]

/-- A database call has its effect on the store as a map. -/
theorem apply_put (path body : Bytes) (store : Store)
    : store.apply (.put path body) = Function.update store path (some body) := by
  funext key
  simp [Store.apply, Function.update_apply]

/-- Deleting a path leaves nothing there. -/
theorem apply_delete (path : Bytes) (store : Store)
    : store.apply (.delete path) = Function.update store path none := by
  funext key
  simp [Store.apply, Function.update_apply]

/-- What a handler leaves of an imported request is what the map would answer, and become. -/
structure Served (store : Store) (op : KvsRequest × DbStatus) (handled : Handled) : Prop where
  reply : (serve op store).1.Of handled.res
  effect : store.after handled.calls op.2 = (serve op store).2

/-- The map replies with a status of HTTP, so nothing is handed on, by cases on the method. -/
theorem Served.low (served : Served store (req, status) handled) : handled.res.status ≤ 500 := by
  rw [served.reply.status]
  unfold serve
  dsimp only
  split
  · dsimp only
    cases status with
    | error applied => exact (by decide : (500 : UInt32) ≤ 500)
    | ok =>
        cases store req.path with
        | none => exact (by decide : (404 : UInt32) ≤ 500)
        | some val => exact (by decide : (200 : UInt32) ≤ 500)
  · split
    · split
      · exact (by decide : (400 : UInt32) ≤ 500)
      · cases status with
        | ok => exact (by decide : (200 : UInt32) ≤ 500)
        | error applied => exact (by decide : (500 : UInt32) ≤ 500)
    · split
      · cases status with
        | ok => exact (by decide : (204 : UInt32) ≤ 500)
        | error applied => exact (by decide : (500 : UInt32) ≤ 500)
      · exact (by decide : (405 : UInt32) ≤ 500)

/-- A GET answers what the map has at the path, by cases on the status and on that value. -/
theorem served_get (untouched : Untouched res) (get : req.MethodIs "GET")
    (did : backendHandler false pool (store.dbUnder status) grown req res true = some handled)
    : Served store (req, status) handled := by
  rw [backendHandler, if_neg (by decide), if_pos get] at did
  dsimp only at did
  have meaning : serve (req, status) store = (getReply status (store req.path), store) := by
    rw [serve, if_pos get]
  have kept : store.after [.get req.path] status = store := by
    unfold Store.after
    split <;> rfl
  -- a failed `Get` answers by itself, whatever is stored
  cases status with
  | error applied =>
      obtain rfl := Option.some.inj did
      exact ⟨by rw [meaning]; exact reply_answer untouched _ _, by rw [meaning]; exact kept⟩
  | ok =>
      have got : (store.dbUnder .ok).get req.path
          = ((store req.path).map GetAnswer.found).getD .notFound := rfl
      rw [got] at did
      cases value : store req.path with
      | none =>
          rw [value] at did meaning
          obtain rfl := Option.some.inj did
          exact ⟨by rw [meaning]; exact reply_answer untouched _ _, by rw [meaning]; exact kept⟩
      | some val =>
          rw [value] at did meaning
          obtain ⟨out, set, rfl⟩ := Option.map_eq_some_iff.mp did
          have body := setBody_eq untouched val grown
          split at body
          · obtain ⟨bodyMem, set', filled⟩ := body
            obtain rfl := Option.some.inj (set'.symm.trans set)
            refine ⟨?_, by rw [meaning]; exact kept⟩
            rw [meaning]
            exact ⟨rfl, rfl, untouched.headers, filled⟩
          · rw [body] at set
            cases set

/-- A PUT with a body puts it into the map, unless the database refuses it without effect. -/
theorem served_put (untouched : Untouched res) (put : req.MethodIs "PUT")
    (did : backendHandler false pool (store.dbUnder status) grown req res true = some handled)
    : Served store (req, status) handled := by
  by_cases empty : req.body = []
  · have length : req.body.length = 0 := by rw [empty]; rfl
    rw [backendHandler, if_neg (by decide), if_neg put.put_not_get, if_pos put, if_pos length]
      at did
    have meaning : serve (req, status) store
        = (⟨400, "PUT need to have body\n", [], []⟩, store) := by
      rw [serve, if_neg put.put_not_get, if_pos put, if_pos empty]
    obtain rfl := Option.some.inj did
    refine ⟨by rw [meaning]; exact reply_answer untouched _ _, ?_⟩
    rw [meaning]
    unfold Store.after
    split <;> rfl
  · rw [backendHandler_put put empty] at did
    have meaning : serve (req, status) store
        = (putReply status,
            if status.applied then Function.update store req.path (some req.body)
            else store) := by
      rw [serve, if_neg put.put_not_get, if_pos put, if_neg empty]
    have effect : store.after [.put req.path req.body] status
        = if status.applied then Function.update store req.path (some req.body) else store := by
      rw [Store.after, List.foldl_cons, List.foldl_nil, apply_put]
    obtain rfl := Option.some.inj did
    cases status with
    | ok =>
        exact ⟨by rw [meaning]; exact reply_answer untouched _ _, by rw [meaning]; exact effect⟩
    | error applied =>
        exact ⟨by rw [meaning]; exact reply_answer untouched _ _, by rw [meaning]; exact effect⟩

/-- Other methods delete the path from the map, or leave it alone. -/
theorem served_other (untouched : Untouched res) (notGet : ¬ req.MethodIs "GET")
    (notPut : ¬ req.MethodIs "PUT")
    (did : backendHandler false pool (store.dbUnder status) grown req res true = some handled)
    : Served store (req, status) handled := by
  rw [backendHandler, if_neg (by decide), if_neg notGet, if_neg notPut] at did
  by_cases delete : req.MethodIs "DELETE"
  · rw [if_pos delete] at did
    have meaning : serve (req, status) store
        = (deleteReply status,
            if status.applied then Function.update store req.path none else store) := by
      rw [serve, if_neg notGet, if_neg notPut, if_pos delete]
    have effect : store.after [.delete req.path] status
        = if status.applied then Function.update store req.path none else store := by
      rw [Store.after, List.foldl_cons, List.foldl_nil, apply_delete]
    cases status with
    | error applied =>
        obtain rfl := Option.some.inj did
        exact ⟨by rw [meaning]; exact reply_answer untouched _ _, by rw [meaning]; exact effect⟩
    | ok =>
        obtain ⟨out, added, rfl⟩ := Option.map_eq_some_iff.mp did
        rw [httpResponseAddHeader, untouched.headers] at added
        obtain rfl := Option.some.inj added
        refine ⟨?_, by rw [meaning]; exact effect⟩
        rw [meaning]
        exact ⟨rfl, rfl, rfl, (reply_answer untouched 204 "NoContent\n").body⟩
  -- any other method is answered without a call on the store
  · rw [if_neg delete] at did
    have meaning : serve (req, status) store
        = (⟨405, "Method Not Allowed\n", [], []⟩, store) := by
      rw [serve, if_neg notGet, if_neg notPut, if_neg delete]
    obtain rfl := Option.some.inj did
    refine ⟨by rw [meaning]; exact reply_answer untouched _ _, ?_⟩
    rw [meaning]
    unfold Store.after
    split <;> rfl

/-- A backend serves an imported request as the map would, by cases on the method. -/
theorem served_backend (untouched : Untouched res)
    (did : backendHandler false pool (store.dbUnder status) grown req res true = some handled)
    : Served store (req, status) handled := by
  by_cases get : req.MethodIs "GET"
  · exact served_get untouched get did
  · by_cases put : req.MethodIs "PUT"
    · exact served_put untouched put did
    · exact served_other untouched get put did

end Backend

end Sharded

end PrismHTTP.Kvs
