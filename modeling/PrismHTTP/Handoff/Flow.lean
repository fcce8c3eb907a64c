import PrismHTTP.Library.LossyLink
import PrismHTTP.Switch.Datagram
import PrismHTTP.Switch.RuleEffects

/-! One client's flow through any number of servers.
Servers, the switch and the handoff connections take steps in any order: each step is one
event-loop callback, one control request executed by the switch, or one handoff message
received. Control requests are executed exactly once here, and messages arrive in order.
-/

namespace PrismHTTP.Handoff
open Switch LossyLink

/-- The configured part of `http_server_socket`; only the low half of the port is used. -/
structure HttpServerSocket where
  serverAddr : UInt32
  serverPort : UInt32
  serverMac : Mac

def HttpServerSocket.owner (hss : HttpServerSocket) : Owner :=
  ⟨hss.serverAddr, hss.serverPort.toUInt16, hss.serverMac⟩

/-- The servers, under any names, and the client's address and port. -/
structure Deployment (ι : Type) where
  server : ι → HttpServerSocket
  client : Endpoint

/-- Where a client socket is between two callbacks. -/
inductive Phase where
  /-- `uv_read_start` is in force. -/
  | reading
  /-- Reading is stopped and ADD or LOCK is queued. -/
  | stopped
  /-- Imported, and CHOWN is queued. -/
  | importing
  /-- States exported and the socket closed, until the monitor reports the real close. -/
  | exporting
  /-- Closed by `phttp_start_close`, until the close callback or the monitor. -/
  | closing
  /-- Freed. -/
  | gone
  deriving DecidableEq

/-- `http_client_socket`, with the server that holds it. -/
structure HttpClientSocket (ι : Type) where
  serverSock : ι
  imported : Bool
  phase : Phase
  peername : Endpoint
  handoffDest : ι

inductive UserCb where
  | afterConfigureSwitch
  | afterChangeOwner
  deriving DecidableEq

/-- A queued control request; `data` is the client socket passed to its callback. -/
structure Task where
  req : PswReq
  userCb : Option UserCb
  data : Nat

/-- A handoff message on the connection from one server to another. -/
structure HandoffReq (ι : Type) where
  source : ι
  dest : ι
  peer : Endpoint

/-- What a request handler leaves in the response. -/
structure Response (ι : Type) where
  status : UInt32
  handoffDest : ι

/-- An ordinary status, or the status that asks for a handoff. -/
def Response.Allowed {ι : Type} (res : Response ι) : Prop := res.status ≤ 500 ∨ res.status = 600

instance {ι : Type} (res : Response ι) : Decidable res.Allowed :=
  inferInstanceAs (Decidable (_ ∨ _))

/-- The state of the flow. A socket's index is its identity, and freed sockets stay listed.
`handingOff` records that ADD or LOCK was executed last, and influences no step.
-/
structure Flow (ι : Type) where
  socks : List (HttpClientSocket ι)
  queued : List Task
  answered : List Task
  wire : List (HandoffReq ι)
  prism : PrismTable
  handingOff : Bool

def Flow.start (ι : Type) : Flow ι where
  socks := []
  queued := []
  answered := []
  wire := []
  prism := .empty
  handingOff := false

variable {ι : Type}

inductive Event (ι : Type) where
  | accept (server : ι)
  | onRead (i : Nat) (res : Response ι)
  | startClose (i : Nat)
  | execute (j : Nat)
  | callback (j : Nat)
  | realClose (i : Nat)
  | onHandoff (j : Nat) (res : Response ι)

/-- `on_connection`. The client opens a connection from this port only when nothing of an
earlier one is left: no socket, no message and no control request still to be executed.
-/
def accept (dep : Deployment ι) (s : Flow ι) (server : ι) : Option (Flow ι) :=
  if (∀ c ∈ s.socks, c.phase = .gone) ∧ s.wire.isEmpty ∧ s.queued.isEmpty then
    some { s with socks := s.socks ++ [⟨server, false, .reading, dep.client, server⟩] }
  else
    none

/-- The request of `phttp_start_handoff`: LOCK for an imported socket, else ADD. -/
def handoffTask (dep : Deployment ι) (i : Nat) (hcs : HttpClientSocket ι) : Task :=
  if hcs.imported then
    {
      req :=
        .lock { status := 0, peerAddr := hcs.peername.addr, peerPort := hcs.peername.port }
      userCb := some .afterConfigureSwitch
      data := i
    }
  else
    let hss := dep.server hcs.serverSock
    {
      req :=
        .add
          {
            status := 0
            peerAddr := hcs.peername.addr
            peerPort := hcs.peername.port
            virtualAddr := hss.serverAddr
            virtualPort := hss.serverPort.toUInt16
            ownerAddr := hss.serverAddr
            ownerPort := hss.serverPort.toUInt16
            ownerMac := hss.serverMac
            lock := 1
          }
      userCb := some .afterConfigureSwitch
      data := i
    }

/-- The request of `start_change_owner`. -/
def chownTask (dep : Deployment ι) (i : Nat) (hcs : HttpClientSocket ι) : Task where
  req :=
    let hss := dep.server hcs.serverSock
    .chown
      {
        status := 0
        peerAddr := hcs.peername.addr
        peerPort := hcs.peername.port
        ownerAddr := hss.serverAddr
        ownerPort := hss.serverPort.toUInt16
        ownerMac := hss.serverMac
        unlock := 1
      }
  userCb := some .afterChangeOwner
  data := i

/-- The request of `after_real_close_imported`, queued without a callback. -/
def deleteTask (i : Nat) (hcs : HttpClientSocket ι) : Task where
  req := .delete { status := 0, peerAddr := hcs.peername.addr, peerPort := hcs.peername.port }
  userCb := none
  data := i

/-- `phttp_on_read` with a whole request: the handler answers, or a handoff starts. -/
def onRead (dep : Deployment ι) (s : Flow ι) (i : Nat) (res : Response ι)
    : Option (Flow ι) :=
  s.socks[i]?.bind fun hcs =>
    if hcs.phase = .reading ∧ res.Allowed then
      if res.status = 600 then
        some
          {
            s with
              socks := s.socks.set i { hcs with phase := .stopped, handoffDest := res.handoffDest }
              queued := s.queued ++ [handoffTask dep i hcs]
          }
      else
        some s
    else
      none

/-- `phttp_start_close`, on end of file, an error or an unacceptable request. -/
def startClose (s : Flow ι) (i : Nat) : Option (Flow ι) :=
  s.socks[i]?.bind fun hcs =>
    if hcs.phase = .reading then
      some { s with socks := s.socks.set i { hcs with phase := .closing } }
    else
      none

/-- ADD and LOCK open a handoff and CHOWN ends it. -/
def opensHandoff (req : PswReq) (before : Bool) : Bool :=
  match req with
  | .add _ | .lock _ => true
  | .chown _ => false
  | .delete _ | .unlock _ => before

/-- The switch executes a queued request. Only a request with a callback is waited for. -/
def execute (s : Flow ι) (j : Nat) : Option (Flow ι) :=
  (take? s.queued j).map fun (task, rest) =>
    {
      s with
        prism := (task.req.execute s.prism).1
        queued := rest
        answered := if task.userCb.isSome then task :: s.answered else s.answered
        handingOff := opensHandoff task.req s.handingOff
    }

/-- The user callback of an answered request; the reply it checks has the status 0 that the
request was sent with.
-/
def callback (s : Flow ι) (j : Nat) : Option (Flow ι) :=
  (take? s.answered j).bind fun (task, rest) =>
    s.socks[task.data]?.map fun hcs =>
      match task.userCb with
      | some .afterConfigureSwitch =>
          {
            s with
              answered := rest
              socks := s.socks.set task.data { hcs with phase := .exporting }
          }
      | some .afterChangeOwner =>
          {
            s with
              answered := rest
              socks := s.socks.set task.data { hcs with phase := .reading }
          }
      | none => { s with answered := rest }

/-- `after_real_close` sends the exported states, `after_real_close_imported` queues DELETE,
and a socket that was never imported is just freed.
-/
def realClose (s : Flow ι) (i : Nat) : Option (Flow ι) :=
  s.socks[i]?.bind fun hcs =>
    let freed := s.socks.set i { hcs with phase := .gone }
    match hcs.phase with
    | .exporting =>
        some
          {
            s with
              socks := freed
              wire := s.wire ++ [⟨hcs.serverSock, hcs.handoffDest, hcs.peername⟩]
          }
    | .closing =>
        if hcs.imported then
          some { s with socks := freed, queued := s.queued ++ [deleteTask i hcs] }
        else
          some { s with socks := freed }
    | .reading | .stopped | .importing | .gone => none

/-- `phttp_on_handoff` with the first message of its connection: import or forward. -/
def onHandoff [DecidableEq ι] (dep : Deployment ι) (s : Flow ι) (j : Nat) (res : Response ι)
    : Option (Flow ι) :=
  (take? s.wire j).bind fun (ho, rest) =>
    if (∀ earlier ∈ s.wire.take j, (earlier.source, earlier.dest) ≠ (ho.source, ho.dest))
        ∧ res.Allowed then
      if res.status ≤ 500 then
        let hcs : HttpClientSocket ι := ⟨ho.dest, true, .importing, ho.peer, ho.dest⟩
        some
          {
            s with
              wire := rest
              socks := s.socks ++ [hcs]
              queued := s.queued ++ [chownTask dep s.socks.length hcs]
          }
      else
        some { s with wire := rest ++ [⟨ho.dest, res.handoffDest, ho.peer⟩] }
    else
      none

def next [DecidableEq ι] (dep : Deployment ι) (s : Flow ι) : Event ι → Option (Flow ι)
  | .accept server => accept dep s server
  | .onRead i res => onRead dep s i res
  | .startClose i => startClose s i
  | .execute j => execute s j
  | .callback j => callback s j
  | .realClose i => realClose s i
  | .onHandoff j res => onHandoff dep s j res

/-- The key of the flow's rule. -/
def Deployment.key (dep : Deployment ι) : PrismKey := .ofPeer dep.client.addr dep.client.port

end PrismHTTP.Handoff
