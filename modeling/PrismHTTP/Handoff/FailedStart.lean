import PrismHTTP.Control.Channel
import PrismHTTP.Handoff.Flow
import PrismHTTP.Server.HttpResponse
import PrismHTTP.Server.RequestTransfer
import PrismHTTP.Switch.ReplyStatus

/-! Starting a handoff when the first send fails.
The connection has stopped reading by then, and the request's socket is open with its retry
timer armed. Nothing undoes either, so the request answered with 500 is handed over all the
same when the timer expires.
-/

namespace PrismHTTP.Handoff
open ByteLayout Switch LossyLink Transition Control
open Server (HttpRequest HttpResponse HTTPReq httpRequestReset httpRequestExport
  httpRequestInit httpResponseInit phttpSendHttpRes literal)

/-- What `uv_udp_send` returns instead of zero. -/
abbrev UvError := { error : Int32 // error ≠ 0 }

/-- A server's control channel and one of its connections, whose `after_configure_switch`
`task` is waiting for. `writing` are the responses given to `uv_write`, oldest first.
-/
structure Worker (ι : Type) where
  channel : Channel
  hcs : HttpClientSocket ι
  req : HttpRequest
  task : Option Nat
  writing : List Server.Bytes
  exported : Option HTTPReq

/-- `prism_switch_client_queue_task`, with the datagram of the first send or its error. The
socket and the timer are there in both cases.
-/
def prismSwitchClientQueueTask (conf : Config) (s : Channel) (sock : Endpoint) (req : PswReq)
    (sent : Except UvError XdpMd) : Option (Int32 × Channel) :=
  match sent with
  | .ok packet => (queueTask conf s sock req true packet).map fun after => (0, after)
  | .error error =>
      if ∀ r ∈ s.reqs, r.live → r.sock ≠ sock then
        some (error.1, { s with reqs := s.reqs ++ [⟨sock, req, true, 0, true⟩] })
      else
        none

namespace Worker

variable {ι : Type}

def phttpStartHandoff (conf : Config) (dep : Deployment ι) (w : Worker ι) (dest : ι)
    (sock : Endpoint) (sent : Except UvError XdpMd) : Option (Int32 × Worker ι) := do
  let (error, channel) ←
    prismSwitchClientQueueTask conf w.channel sock (handoffTask dep 0 w.hcs).req sent
  let w : Worker ι := {
    channel := channel
    hcs := { w.hcs with phase := .stopped, handoffDest := dest }
    req := w.req
    task := some w.channel.reqs.length
    writing := w.writing
    exported := w.exported
  }
  return (error, w)

/-- `phttp_send_http_res` of what `hcs->res` holds. -/
def send (w : Worker ι) (res : HttpResponse) : Option (Worker ι) :=
  (phttpSendHttpRes res false).map fun bytes => { w with writing := w.writing ++ [bytes] }

/-- `phttp_on_read` with a whole request, from what the handler left in the response. -/
def phttpOnRead (conf : Config) (dep : Deployment ι) (w : Worker ι) (req : HttpRequest)
    (res : HttpResponse) (dest : ι) (sock : Endpoint) (sent : Except UvError XdpMd)
    : Option (Worker ι) :=
  if w.hcs.phase = .reading then
    if res.status = 600 then do
      let (error, w) ← phttpStartHandoff conf dep { w with req := req } dest sock sent
      if error ≠ 0 then
        w.send { res with status := 500, reason := literal "Internal Server Error" }
      else
        return w
    else
      { w with req := req }.send res
  else
    none

def afterSendHttpRes (w : Worker ι) : Option (Worker ι) :=
  match w.writing with
  | _ :: rest => some { w with writing := rest, req := httpRequestReset w.req }
  | [] => none

/-- The HTTP part of the export; `none` is the failed assertion on the reply's status. -/
def afterConfigureSwitch (w : Worker ι) (status : UInt16) : Option (Worker ι) :=
  if status = 0 then
    some
      {
        channel := w.channel
        hcs := { w.hcs with phase := .exporting }
        req := w.req
        task := none
        writing := w.writing
        exported := some (httpRequestExport w.req)
      }
  else
    none

/-- `on_recv`, whose callback is the connection's own for the task it is waiting for. -/
def onRecv (w : Worker ι) (j : Nat) : Option (Worker ι) := do
  let (d, _) ← take? w.channel.toClient j
  let channel ← Control.reply w.channel j
  let after := { w with channel := channel }
  if w.task.isSome ∧ receiver w.channel.reqs (frameDst d.packet.frame) = w.task then
    after.afterConfigureSwitch (prbStatus d.packet.frame)
  else
    return after

end Worker

inductive WorkerEvent (ι : Type) where
  | onRead (req : HttpRequest) (res : HttpResponse) (dest : ι) (sock : Endpoint)
    (sent : Except UvError XdpMd)
  | afterSend
  /-- Other requests, the retry timers, the network and the switch. -/
  | control (action : Action)

namespace Worker

variable {ι : Type}

def next? (conf : Config) (dep : Deployment ι) (w : Worker ι) : WorkerEvent ι → Option (Worker ι)
  | .onRead req res dest sock sent => w.phttpOnRead conf dep req res dest sock sent
  | .afterSend => w.afterSendHttpRes
  | .control (.reply j) => w.onRecv j
  | .control action =>
      (Control.next conf w.channel action).map fun channel => { w with channel := channel }

/-- A connection that waits for `after_configure_switch` of the request `r`, whose socket is
the only open one on its port.
-/
structure Awaiting (before : List ConfReq) (r : ConfReq) (w : Worker ι) : Prop where
  stopped : w.hcs.phase = .stopped
  task : w.task = some before.length
  reqs : w.channel.reqs = before ++ [r]
  live : r.live = true
  userCb : r.userCb = true
  free : ∀ q ∈ before, q.live → q.sock ≠ r.sock

/-- A failed start leaves all that a successful one does, but no datagram. -/
theorem awaiting_of_failed {conf : Config} {dep : Deployment ι} {w after : Worker ι}
    {req : HttpRequest} {res : HttpResponse} {dest : ι} {sock : Endpoint} {error : UvError}
    (handoff : res.status = 600)
    (failed : w.phttpOnRead conf dep req res dest sock (.error error) = some after)
    : Awaiting w.channel.reqs ⟨sock, (handoffTask dep 0 w.hcs).req, true, 0, true⟩ after
      ∧ after.channel.switch = w.channel.switch := by
  rw [phttpOnRead] at failed
  by_cases reading : w.hcs.phase = .reading
  · rw [if_pos reading, if_pos handoff] at failed
    obtain ⟨⟨code, started⟩, did, answered⟩ := Option.bind_eq_some_iff.mp failed
    obtain ⟨⟨code', channel⟩, queued, same⟩ := Option.bind_eq_some_iff.mp did
    simp only [prismSwitchClientQueueTask, Option.ite_none_right_eq_some, Option.some.injEq]
      at queued
    obtain ⟨free, made⟩ := queued
    obtain ⟨rfl, rfl⟩ := Prod.mk.inj made
    obtain ⟨rfl, rfl⟩ := Prod.mk.inj (Option.some.inj same)
    dsimp only at answered
    rw [if_pos error.2] at answered
    -- answering 500 touches neither the request nor the phase
    obtain ⟨bytes, -, rfl⟩ := Option.map_eq_some_iff.mp answered
    exact ⟨⟨rfl, rfl, rfl, rfl, rfl, free⟩, rfl⟩
  · rw [if_neg reading] at failed
    cases failed

section Tick

variable {conf : Config} {dep : Deployment ι} {before : List ConfReq} {r : ConfReq}
  {w : Worker ι} (h : Awaiting before r w)

include h

/-- The request is received at its place behind the earlier ones. -/
theorem Awaiting.receiver_eq : receiver w.channel.reqs r.sock = some before.length := by
  rw [receiver, h.reqs, List.findIdx?_append]
  -- no request before it has its port open
  have none : before.findIdx? (fun q => q.live && q.sock = r.sock) = none := by
    rw [List.findIdx?_eq_none_iff]
    intro q member
    cases open_ : q.live
    · rfl
    · simpa using h.free q member open_
  rw [none]
  simp [h.live]

/-- The retry timer expires. -/
theorem Awaiting.retry {packet : XdpMd} (carries : Carries conf r.sock r.sbuf packet.frame)
    : ∃ s,
        next? conf dep w (.control (.retrySend before.length packet)) = some s
        ∧ Awaiting before { r with retryCount := r.retryCount + 1 } s
        ∧ s.channel.toSwitch = ⟨packet, before.length, r.sbuf⟩ :: w.channel.toSwitch
        ∧ s.channel.switch = w.channel.switch := by
  have found : w.channel.reqs[before.length]? = some r := by
    rw [h.reqs, List.getElem?_concat_length]
  have sent : Control.next conf w.channel (.retrySend before.length packet)
      = some
          {
            w.channel with
              reqs := w.channel.reqs.set before.length { r with retryCount := r.retryCount + 1 }
              toSwitch := ⟨packet, before.length, r.sbuf⟩ :: w.channel.toSwitch
          } := by
    rw [Control.next, retrySend, found, Option.bind_some, if_pos ⟨h.live, carries⟩]
  refine ⟨_, congrArg (Option.map _) sent, ⟨h.stopped, h.task, ?_, h.live, h.userCb, h.free⟩,
    rfl, rfl⟩
  simp [h.reqs]

/-- The switch executes the request and replies to its socket. -/
theorem Awaiting.arrive {packet : XdpMd} {more : List Datagram}
    (carries : Carries conf r.sock r.sbuf packet.frame)
    (answerable : packet.ingressIfindex ≠ valeBpfDrop)
    (sent : w.channel.toSwitch = ⟨packet, before.length, r.sbuf⟩ :: more)
    : ∃ s reply later,
        next? conf dep w (.control (.arrive 0)) = some s
        ∧ Awaiting before r s
        ∧ s.channel.toClient = reply :: later
        ∧ frameDst reply.packet.frame = r.sock
        ∧ prbStatus reply.packet.frame = prbStatus packet.frame
        ∧ s.channel.switch.prism = (r.sbuf.execute w.channel.switch.prism).1
        ∧ before.length ∈ s.channel.arrived.map Prod.fst := by
  have carried := carries.configReq
  have answers := answers_of_configReq carried w.channel.switch
  obtain ⟨port, back⟩ := answers.reply_address
  have taken : take? w.channel.toSwitch 0 = some (⟨packet, before.length, r.sbuf⟩, more) := by
    rw [sent]
    rfl
  -- the switch answers on the port the request came in, so the reply is not dropped
  have fires : ∃ channel, Control.next conf w.channel (.arrive 0) = some channel
      ∧ channel.reqs = w.channel.reqs
      ∧ channel.toClient
        = ⟨⟨(valeLookup conf w.channel.switch packet).frame,
            (valeLookup conf w.channel.switch packet).port⟩, before.length, r.sbuf⟩
          :: w.channel.toClient
      ∧ channel.switch = (valeLookup conf w.channel.switch packet).state
      ∧ before.length ∈ channel.arrived.map Prod.fst := by
    refine ⟨_, congrArg (Option.map _) taken, rfl, if_neg ?_, rfl, ?_⟩
    · rwa [port]
    · dsimp only
      split
      · assumption
      · simp
  obtain ⟨channel, arrived, same, replied, switch, known⟩ := fires
  refine ⟨_, _, _, congrArg (Option.map _) arrived,
    ⟨h.stopped, h.task, same.trans h.reqs, h.live, h.userCb, h.free⟩, replied, ?_, ?_, ?_, known⟩
  · rw [back]
    exact carries.2.1
  · exact answers.reply_status
  · dsimp only
    rw [switch, valeLookup_prism, carried]

/-- The reply closes the request, and the connection is exported and closed. -/
theorem Awaiting.reply {reply : Datagram} {later : List Datagram}
    (arrived : w.channel.toClient = reply :: later) (toSock : frameDst reply.packet.frame = r.sock)
    (status : prbStatus reply.packet.frame = 0)
    : ∃ s,
        next? conf dep w (.control (.reply 0)) = some s
        ∧ s.hcs.phase = .exporting
        ∧ s.exported = some (httpRequestExport w.req)
        ∧ before.length ∈ s.channel.callbacks
        ∧ s.channel.switch = w.channel.switch
        ∧ s.channel.arrived = w.channel.arrived := by
  have taken : take? w.channel.toClient 0 = some (reply, later) := by
    rw [arrived]
    rfl
  have found : w.channel.reqs[before.length]? = some r := by
    rw [h.reqs, List.getElem?_concat_length]
  have fires : ∃ channel, Control.reply w.channel 0 = some channel
      ∧ before.length ∈ channel.callbacks
      ∧ channel.switch = w.channel.switch
      ∧ channel.arrived = w.channel.arrived := by
    refine ⟨_, congrArg (Option.map _) taken, ?_⟩
    dsimp only
    rw [toSock, h.receiver_eq]
    simp [Control.onRecv, found, h.userCb]
  obtain ⟨channel, received, called, kept⟩ := fires
  have own : w.task.isSome ∧ receiver w.channel.reqs (frameDst reply.packet.frame) = w.task := by
    rw [toSock, h.receiver_eq, h.task]
    exact ⟨rfl, rfl⟩
  refine ⟨⟨channel, { w.hcs with phase := .exporting }, w.req, none, w.writing,
    some (httpRequestExport w.req)⟩, ?_, rfl, rfl, called, kept⟩
  simp only [next?, onRecv, taken, received, Option.bind_eq_bind, Option.bind_some, if_pos own,
    afterConfigureSwitch, status, if_true]

end Tick

/-- Nothing but an import starts reading again. -/
theorem next_stopped {conf : Config} {dep : Deployment ι} {w after : Worker ι}
    {event : WorkerEvent ι} (stopped : w.hcs.phase ≠ .reading)
    (fires : Fires (next? conf dep) w event after)
    : after.hcs.phase ≠ .reading := by
  have did : next? conf dep w event = some after := fires
  cases event with
  | onRead req res dest sock sent =>
      rw [next?, phttpOnRead, if_neg stopped] at did
      cases did
  | afterSend =>
      rw [next?, afterSendHttpRes] at did
      split at did
      · obtain rfl := Option.some.inj did
        exact stopped
      · cases did
  | control action =>
      -- a reply may move the connection on to `exporting`, never back
      cases action with
      | reply j =>
          obtain ⟨⟨d, rest⟩, -, did⟩ := Option.bind_eq_some_iff.mp did
          obtain ⟨channel, -, did⟩ := Option.bind_eq_some_iff.mp did
          dsimp only at did
          split at did
          · rw [afterConfigureSwitch] at did
            split at did
            · obtain rfl := Option.some.inj did
              exact fun reading => by cases reading
            · cases did
          · obtain rfl := Option.some.inj did
            exact stopped
      | queueTask | retrySend | requestNoise | replyNoise | arrive =>
          obtain ⟨channel, -, rfl⟩ := Option.map_eq_some_iff.mp did
          exact stopped

/-- ADD and LOCK are sent with status zero. -/
theorem prbStatus_handoffTask {conf : Config} {dep : Deployment ι} {hcs : HttpClientSocket ι}
    {sock : Endpoint} {f : Frame} (carries : Carries conf sock (handoffTask dep 0 hcs).req f)
    : prbStatus f = 0 := by
  obtain ⟨parses, -, rest, payload⟩ := carries
  have long : 42 ≤ f.length := parses.1
  have head : (f.take 42).length = 42 := by simp [long]
  have base : ∃ type addr port fields,
      (handoffTask dep 0 hcs).req.store = storeBase type 0 addr port ++ fields := by
    cases imported : hcs.imported <;> simp only [handoffTask, imported, PswReq.store]
    · exact ⟨_, _, _, _, rfl⟩
    · exact ⟨_, _, _, [], (List.append_nil _).symm⟩
  obtain ⟨type, addr, port, fields, base⟩ := base
  have split : f = f.take 42 ++ (storeBase type 0 addr port ++ (fields ++ rest)) := by
    rw [← List.append_assoc _ fields, ← base, payload, List.take_append_drop]
  have status := (storeBase_fields type 0 addr port (f.take 42) (fields ++ rest)).2.1
  rw [← split, head] at status
  exact status

/-- From now on nothing happens for the request at that index: it is not sent, not executed
and not answered, and the connection is read from.
-/
structure WithoutEffect (conf : Config) (dep : Deployment ι) (i : Nat) (w : Worker ι) : Prop where
  unsent
    : ∀ s, Reachable (· = w) (Fires (next? conf dep)) s
      → ∀ d ∈ s.channel.toSwitch, d.origin ≠ i
  unexecuted
    : ∀ s, Reachable (· = w) (Fires (next? conf dep)) s
      → i ∉ s.channel.arrived.map Prod.fst
  uncalled
    : ∀ s, Reachable (· = w) (Fires (next? conf dep)) s
      → i ∉ s.channel.callbacks
  reading : w.hcs.phase = .reading

/-- The timer expires, the datagram arrives, and its reply closes the connection. -/
theorem Awaiting.runs {conf : Config} {dep : Deployment ι} {before : List ConfReq} {r : ConfReq}
    {w : Worker ι} {hcs : HttpClientSocket ι} (h : Awaiting before r w)
    (own : r.sbuf = (handoffTask dep 0 hcs).req)
    : ∃ sent called,
        Reachable (· = w) (Fires (next? conf dep)) sent
        ∧ Reachable (· = w) (Fires (next? conf dep)) called
        ∧ (∃ d ∈ sent.channel.toSwitch, d.origin = before.length ∧ d.request = r.sbuf)
        ∧ before.length ∈ called.channel.arrived.map Prod.fst
        ∧ called.channel.switch.prism = (r.sbuf.execute w.channel.switch.prism).1
        ∧ before.length ∈ called.channel.callbacks
        ∧ called.hcs.phase = .exporting := by
  let packet : XdpMd := ⟨bareDatagram conf r.sock r.sbuf.store, 0⟩
  have carries : Carries conf r.sock r.sbuf packet.frame := carries_bareDatagram _ _ _
  have answerable : packet.ingressIfindex ≠ valeBpfDrop := show (0 : UInt32) ≠ _ by decide
  have status : prbStatus packet.frame = 0 := prbStatus_handoffTask (own ▸ carries)
  obtain ⟨first, ticked, waiting, inFlight, switch⟩ := h.retry carries
  obtain ⟨second, reply, later, arrived, waiting, replied, toSock, same, executed, known⟩ :=
    waiting.arrive carries answerable inFlight
  obtain ⟨third, received, closed, -, called, switch', arrived'⟩ :=
    waiting.reply replied toSock (same.trans status)
  have reached : Reachable (· = w) (Fires (next? conf dep)) first := .next (.start rfl) ticked
  refine ⟨first, third, reached, .next (.next reached arrived) received, ?_, ?_, ?_, called,
    closed⟩
  · exact ⟨_, inFlight ▸ List.mem_cons_self, rfl, rfl⟩
  · rw [arrived']
    exact known
  · rw [switch', executed, switch]

end Worker

open Worker in
/-- Whatever the error, the request whose first send failed is sent, executed and answered in
some later run, and the connection is never read from again.
-/
theorem failed_start_has_effect {ι : Type} {conf : Config} {dep : Deployment ι}
    {w after : Worker ι} {req : HttpRequest} {res : HttpResponse} {dest : ι} {sock : Endpoint}
    {error : UvError} (handoff : res.status = 600)
    (failed : w.phttpOnRead conf dep req res dest sock (.error error) = some after)
    : ¬ WithoutEffect conf dep w.channel.reqs.length after
      ∧ (∀ s, Reachable (· = after) (Fires (next? conf dep)) s → s.hcs.phase ≠ .reading)
      ∧ ∃ sent called,
          Reachable (· = after) (Fires (next? conf dep)) sent
          ∧ Reachable (· = after) (Fires (next? conf dep)) called
          ∧ (∃ d ∈ sent.channel.toSwitch,
              d.origin = w.channel.reqs.length ∧ d.request = (handoffTask dep 0 w.hcs).req)
          ∧ w.channel.reqs.length ∈ called.channel.arrived.map Prod.fst
          ∧ called.channel.switch.prism
            = ((handoffTask dep 0 w.hcs).req.execute w.channel.switch.prism).1
          ∧ w.channel.reqs.length ∈ called.channel.callbacks
          ∧ called.hcs.phase = .exporting := by
  obtain ⟨waiting, switch⟩ := awaiting_of_failed handoff failed
  have stopped : after.hcs.phase ≠ .reading := fun reading => by
    cases waiting.stopped.symm.trans reading
  have runs := @Awaiting.runs _ conf dep _ _ _ _ waiting rfl
  refine ⟨fun without => stopped without.reading, ?_, switch ▸ runs⟩
  intro s reached
  refine reached.invariant ?_ fun _ _ _ stopped fires => next_stopped stopped fires
  rintro _ rfl
  exact stopped

section Sample

def sampleOneServer : Deployment Unit where
  server := fun _ => ⟨0x0300000a, 0x9a1f, #v[2, 0, 0, 0, 0, 5]⟩
  client := ⟨0x0200000a, 0x901f⟩

def sampleBlock : Server.Block := ⟨65536, fun _ => 0⟩

/-- An accepted connection, before anything was queued. -/
def sampleWorker : Worker Unit where
  channel := .start .empty
  hcs := ⟨(), false, .reading, sampleOneServer.client, ()⟩
  req := httpRequestInit sampleBlock
  task := none
  writing := []
  exported := none

def sampleTaskSock : Endpoint := ⟨0x0300000a, 0x3930⟩

def sampleAnswer : HttpResponse :=
  { httpResponseInit sampleBlock sampleBlock with status := 600, reason := literal "Handoff" }

/-- The handler asks for a handoff, and the first send returns `UV_ENOBUFS`. -/
def sampleFailed : Worker Unit :=
  (sampleWorker.phttpOnRead ⟨1, 2⟩ sampleOneServer (httpRequestInit sampleBlock) sampleAnswer ()
    sampleTaskSock (.error ⟨-105, by decide⟩)).getD sampleWorker

/-- The read ends in the state with the failed request. -/
theorem sampleFailed_eq
    : sampleWorker.phttpOnRead ⟨1, 2⟩ sampleOneServer (httpRequestInit sampleBlock) sampleAnswer
        () sampleTaskSock (.error ⟨-105, by decide⟩)
      = some sampleFailed := by
  have answered : (sampleWorker.phttpOnRead ⟨1, 2⟩ sampleOneServer (httpRequestInit sampleBlock)
      sampleAnswer () sampleTaskSock (.error ⟨-105, by decide⟩)).isSome := by
    decide +kernel
  rw [sampleFailed, Option.getD_of_ne_none]
  exact Option.isSome_iff_ne_none.mp answered

/-- The callback of the failed request comes, and the socket is exported. -/
theorem failed_start_has_effect_sample
    : ∃ called, Reachable (· = sampleFailed) (Fires (Worker.next? ⟨1, 2⟩ sampleOneServer)) called
        ∧ 0 ∈ called.channel.callbacks
        ∧ called.hcs.phase = .exporting := by
  obtain ⟨-, -, sent, called, -, reached, -, -, -, ran, closed⟩ :=
    failed_start_has_effect rfl sampleFailed_eq
  exact ⟨called, reached, ran, closed⟩

/-- The handler's 600 is answered with 500, and one tick later the switch has a rule, the
callback has run and the connection is closed.
-/
theorem failed_start_registers
    : let tick : XdpMd :=
        ⟨bareDatagram ⟨1, 2⟩ sampleTaskSock (handoffTask sampleOneServer 0 sampleWorker.hcs).req.store,
          0⟩
      let run := runOf (Worker.next? ⟨1, 2⟩ sampleOneServer) sampleFailed
        [.afterSend, .control (.retrySend 0 tick), .control (.arrive 0), .control (.reply 0)]
      sampleFailed.writing
          = [literal "HTTP/1.1 500 Internal Server Error\r\nServer: Prism\r\n"
              ++ literal "Content-Length: 0\r\n\r\n"]
        ∧ sampleFailed.channel.switch.prism.lookup sampleOneServer.key = none
        ∧ Path (Fires (Worker.next? ⟨1, 2⟩ sampleOneServer)) sampleFailed run
        ∧ ((final sampleFailed run).channel.switch.prism.lookup sampleOneServer.key).isSome
        ∧ (final sampleFailed run).channel.callbacks = [0]
        ∧ (final sampleFailed run).hcs.phase = .exporting
        ∧ ¬ Worker.WithoutEffect ⟨1, 2⟩ sampleOneServer 0 sampleFailed := by
  refine ⟨by decide +kernel, rfl, runOf_path _ _ _, by decide +kernel, by decide +kernel,
    by decide +kernel, fun without => ?_⟩
  have stopped : sampleFailed.hcs.phase = .stopped := by decide +kernel
  cases stopped.symm.trans without.reading

end Sample

end PrismHTTP.Handoff
