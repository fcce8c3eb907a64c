import PrismHTTP.Kvs.Handlers
import PrismHTTP.Library.Transition
import PrismHTTP.Server.RequestTransfer

/-! Requests on their way through a chain of replicas.
A request is read by the proxy or by the backend its connection is at, and from then on it is
one message that each server imports, handles and either hands on as it came or answers.
Nothing is assumed about the order in which messages are delivered.
-/

namespace PrismHTTP.Kvs
open PrismHTTP.Server MemoryBlock Transition

/-- What the handlers read through a request's pointers. -/
def viewOf (req : HttpRequest) : Option KvsRequest := do
  let path ← req.mem.text req.path
  let body ← req.mem.text req.bodyText
  return ⟨req.mem.filled.drop (req.mem.offset req.method.ptr), path, body⟩

section Import

variable {req after : HttpRequest} {block grown : Block}

/-- A request that is imported fits a fresh buffer; a larger one overruns the block. -/
theorem fits_of_import
    (imported : httpRequestImport (httpRequestInit block) (httpRequestExport req) grown
      = some after)
    : req.mem.filled.length ≤ requestBufferSize := by
  have buf : (httpRequestExport req).buf = req.mem.filled := rfl
  rw [← buf]
  exact fits_of_imported imported

/-- The importing server's request is the exported one, moved to a buffer of its own that has the
same bytes.
-/
theorem exists_move_of_import (settled : Settled req)
    (imported : httpRequestImport (httpRequestInit block) (httpRequestExport req) grown
      = some after)
    : ∃ mem : Membuf, after = req.move mem ∧ mem.filled = req.mem.filled
        ∧ mem.size = requestBufferSize := by
  have room : req.mem.filled.length ≤ (httpRequestInit block).mem.avail :=
    fits_of_import imported
  obtain ⟨mem, consumed, filled, -, -, size, -⟩ := Membuf.consume_receive room
  have small : req.mem.cur < 2 ^ 64 := by
    have bound : requestBufferSize < 2 ^ 64 := by decide
    have fits := fits_of_import imported
    rw [Membuf.length_filled] at fits
    omega
  rw [import_export settled small room grown consumed] at imported
  exact ⟨mem, (Option.some.inj imported).symm, filled, size⟩

/-- The importing server's handler reads what the exporting one's would, as moving keeps what
each string reads.
-/
theorem viewOf_import (settled : Settled req)
    (imported : httpRequestImport (httpRequestInit block) (httpRequestExport req) grown
      = some after)
    : viewOf after = viewOf req := by
  obtain ⟨mem, rfl, same, -⟩ := exists_move_of_import settled imported
  have path : mem.text (req.move mem).path = req.mem.text req.path :=
    (settled.holds (by simp [HttpRequest.texts])).text_move same
  have body : mem.text (req.move mem).bodyText = req.mem.text req.bodyText := by
    have seen := congrArg Seen.body (settled.seen_move same)
    exact seen
  have method : mem.offset (req.move mem).method.ptr = req.mem.offset req.method.ptr :=
    offset_move req.method req.mem mem
  unfold viewOf
  rw [show (req.move mem).mem = mem from rfl, path, body, method, same]

end Import

inductive Node where
  | proxy
  | backend (k : Nat)
  deriving DecidableEq

/-- An acyclic chain of backends, by their places in it, and the proxy's list of backends,
whose first entry starts the chain.
-/
structure Deployment where
  length : Nat
  listed : Nat → Nat
  positive : 0 < length
  listed_lt : ∀ i, listed i < length
  first : listed 0 = 0

/-- A handoff message under way. -/
structure Message where
  dest : Node
  id : Nat
  http : HTTPReq

/-- A response given to `phttp_send_http_res`, or kept until the connection is imported. -/
structure Response where
  node : Node
  id : Nat
  status : UInt32

/-- A call made to a backend's database, and whether its status was OK. -/
structure DbRecord where
  node : Node
  call : DbCall
  ok : Bool
  deriving DecidableEq

/-- The messages under way, and what has happened so far. A request's id is its place among
the requests read.
-/
structure System where
  requests : List HttpRequest
  inFlight : List Message
  calls : List DbRecord
  responses : List Response

def System.empty : System := ⟨[], [], [], []⟩

/-- What a handler's call depends on besides the request: its worker's table of connections,
the database's answers and the allocator's.
-/
structure Env where
  pool : Pool
  db : LevelDb
  grown : Block

inductive ChainEvent where
  /-- `phttp_on_read` has a request complete, on a connection of that server. -/
  | read (node : Node) (req : { req : HttpRequest // Settled req }) (res : HttpResponse)
    (env : Env)
  /-- `phttp_on_handoff` of the message at that place, with the blocks it allocates. -/
  | deliver (index : Nat) (reqBlock reqGrown head body : Block) (env : Env)

namespace Deployment

def Has (d : Deployment) : Node → Prop
  | .proxy => True
  | .backend k => k < d.length

instance (d : Deployment) : (node : Node) → Decidable (d.Has node)
  | .proxy => inferInstanceAs (Decidable True)
  | .backend k => inferInstanceAs (Decidable (k < d.length))

/-- The server's request handler; a backend has a next server unless it is the last. -/
def handler (d : Deployment) (node : Node) (env : Env) (req : KvsRequest) (res : HttpResponse)
    (imported : Bool) : Option Handled :=
  match node with
  | .proxy => some (Repl.kvsProxyRequestHandler env.pool req res)
  | .backend k =>
      Repl.kvsBackendRequestHandler (decide (k + 1 < d.length)) env.pool env.db env.grown req
        res imported

/-- Where `handoff_data` leads from a server. -/
def target (d : Deployment) : Node → Option HandoffData → Option Node
  | .proxy, some (.entry i) => some (.backend (d.listed i))
  | .backend _, some (.entry _) => some .proxy
  | .backend k, some .nextServer => some (.backend (k + 1))
  | .proxy, some .nextServer | _, none => none

end Deployment

namespace System

def record (s : System) (node : Node) (db : LevelDb) (calls : List DbCall) : System :=
  { s with calls := s.calls ++ calls.map fun call => ⟨node, call, db.ok call⟩ }

/-- The request goes on to where `handoff_data` leads. -/
def handOver (d : Deployment) (s : System) (node : Node) (id : Nat) (http : HTTPReq)
    (res : HttpResponse) : Option System :=
  (d.target node res.handoffData).map fun dest =>
    { s with inFlight := s.inFlight ++ [⟨dest, id, http⟩] }

def respond (s : System) (node : Node) (id : Nat) (res : HttpResponse) : System :=
  { s with responses := s.responses ++ [⟨node, id, res.status⟩] }

/-- The end of `phttp_on_read`; the handoff it starts sends the exported request. -/
def onRead (d : Deployment) (s : System) (node : Node) (req : HttpRequest) (res : HttpResponse)
    (env : Env) : Option System := do
  let kvs ← viewOf req
  let handled ← d.handler node env kvs (httpResponseReset res) false
  let id := s.requests.length
  let s := { s.record node env.db handled.calls with requests := s.requests ++ [req] }
  if handled.res.status = 600 then
    s.handOver d node id (httpRequestExport req) handled.res
  else
    return s.respond node id handled.res

/-- `phttp_on_handoff`: `forward_proto_states` serialises the message it was given. -/
def onHandoff (d : Deployment) (s : System) (m : Message) (reqBlock reqGrown head body : Block)
    (env : Env) : Option System := do
  let req ← httpRequestImport (httpRequestInit reqBlock) m.http reqGrown
  let kvs ← viewOf req
  let handled ← d.handler m.dest env kvs (httpResponseInit head body) true
  let s := s.record m.dest env.db handled.calls
  if handled.res.status ≤ 500 then
    return s.respond m.dest m.id handled.res
  else if handled.res.status = 600 then
    s.handOver d m.dest m.id m.http handled.res
  else
    none

def next? (d : Deployment) (s : System) : ChainEvent → Option System
  | .read node req res env => if d.Has node then s.onRead d node req.1 res env else none
  | .deliver index reqBlock reqGrown head body env => do
      let m ← s.inFlight[index]?
      let s := { s with inFlight := s.inFlight.eraseIdx index }
      s.onHandoff d m reqBlock reqGrown head body env

end System

end PrismHTTP.Kvs
