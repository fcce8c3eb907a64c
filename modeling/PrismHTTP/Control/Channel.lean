import PrismHTTP.Library.LossyLink
import PrismHTTP.Library.Transition
import PrismHTTP.Switch.Datagram

/-! The control channel between the request sockets of `prism_switch_client` and the switch.
Each queued request owns a UDP socket and a retry timer; datagrams cross an unreliable
link both ways, and the switch runs `vale_lookup` on every one that arrives.
-/

namespace PrismHTTP.Control
open ByteLayout Switch LossyLink Transition

/-- `psw_config_req`: a queued request with its socket, until `on_recv` closes it. -/
structure ConfReq where
  sock : Endpoint
  sbuf : PswReq
  userCb : Bool
  retryCount : UInt32
  live : Bool
  deriving DecidableEq

/-- A packet in flight, marked with the queued request it was sent or answered for and that
request's index. The marks are not on the wire.
-/
structure Datagram where
  packet : XdpMd
  origin : Nat
  request : PswReq

/-- Every client's requests, the switch, and both directions of the network.
`arrived` and `callbacks` record what happened and influence no step.
-/
structure Channel where
  reqs : List ConfReq
  switch : SwitchState
  toSwitch : List Datagram
  toClient : List Datagram
  arrived : List (Nat × PswReq)
  callbacks : List Nat

def Channel.start (switch : SwitchState) : Channel where
  reqs := []
  switch := switch
  toSwitch := []
  toClient := []
  arrived := []
  callbacks := []

/-- The frame of a datagram from the socket to the switch with the request at the start of
its payload. The kernel chooses all other bytes, link-layer padding included.
-/
def Carries (conf : Config) (sock : Endpoint) (req : PswReq) (f : Frame) : Prop :=
  ParsesConfig conf f ∧ frameSrc f = sock ∧ req.store <+: f.drop 42

instance (conf : Config) (sock : Endpoint) (req : PswReq) (f : Frame)
    : Decidable (Carries conf sock req f) :=
  inferInstanceAs (Decidable (_ ∧ _ ∧ _))

/-- What can happen next. -/
inductive Action where
  | queueTask (sock : Endpoint) (req : PswReq) (userCb : Bool) (packet : XdpMd)
  | retrySend (i : Nat) (packet : XdpMd)
  | requestNoise (noise : Noise)
  | replyNoise (noise : Noise)
  | arrive (j : Nat)
  | reply (j : Nat)

/-- Bind a socket to a free port, start the timer and send for the first time. -/
def queueTask (conf : Config) (s : Channel) (sock : Endpoint) (req : PswReq) (userCb : Bool)
    (packet : XdpMd)
    : Option Channel :=
  if (∀ r ∈ s.reqs, r.live → r.sock ≠ sock) ∧ Carries conf sock req packet.frame then
    some
      {
        s with
          reqs := s.reqs ++ [⟨sock, req, userCb, 0, true⟩]
          toSwitch := ⟨packet, s.reqs.length, req⟩ :: s.toSwitch
      }
  else
    none

/-- The retry timer of an open request sends its buffer again. -/
def retrySend (conf : Config) (s : Channel) (i : Nat) (packet : XdpMd) : Option Channel :=
  s.reqs[i]?.bind fun r =>
    if r.live ∧ Carries conf r.sock r.sbuf packet.frame then
      some
        {
          s with
            reqs := s.reqs.set i { r with retryCount := r.retryCount + 1 }
            toSwitch := ⟨packet, i, r.sbuf⟩ :: s.toSwitch
        }
    else
      none

/-- The switch takes a datagram and answers unless it drops it. -/
def arrive (conf : Config) (s : Channel) (j : Nat) : Option Channel :=
  (take? s.toSwitch j).map fun (d, rest) =>
    let out := valeLookup conf s.switch d.packet
    {
      s with
        switch := out.state
        toSwitch := rest
        toClient :=
          if out.port = valeBpfDrop then s.toClient
          else { d with packet := ⟨out.frame, out.port⟩ } :: s.toClient
        arrived :=
          if d.origin ∈ s.arrived.map Prod.fst then s.arrived
          else s.arrived ++ [(d.origin, d.request)]
    }

/-- The request whose open socket a reply is addressed to. -/
def receiver (reqs : List ConfReq) (dst : Endpoint) : Option Nat :=
  reqs.findIdx? fun r => r.live && r.sock = dst

/-- `on_recv`: the user callback, if any, then the socket and the timer are closed. -/
def onRecv (s : Channel) (i : Nat) : Channel :=
  match s.reqs[i]? with
  | some r =>
      {
        s with
          reqs := s.reqs.set i { r with live := false }
          callbacks := if r.userCb then s.callbacks ++ [i] else s.callbacks
      }
  | none => s

/-- A reply reaches whichever open socket holds its destination port now, or nobody. -/
def reply (s : Channel) (j : Nat) : Option Channel :=
  (take? s.toClient j).map fun (d, rest) =>
    let s := { s with toClient := rest }
    match receiver s.reqs (frameDst d.packet.frame) with
    | some i => onRecv s i
    | none => s

def next (conf : Config) (s : Channel) : Action → Option Channel
  | .queueTask sock req userCb packet => queueTask conf s sock req userCb packet
  | .retrySend i packet => retrySend conf s i packet
  | .requestNoise noise => (noise.apply s.toSwitch).map fun flight => { s with toSwitch := flight }
  | .replyNoise noise => (noise.apply s.toClient).map fun flight => { s with toClient := flight }
  | .arrive j => arrive conf s j
  | .reply j => reply s j

/-- A run of the channel, from no requests and any tables. -/
def Run (conf : Config) (switch : SwitchState) (run : List (Action × Channel)) : Prop :=
  Path (Fires (next conf)) (.start switch) run

/-- The run of given actions. -/
def actionsFrom (conf : Config) (switch : SwitchState) (actions : List Action)
    : List (Action × Channel) :=
  runOf (next conf) (.start switch) actions

/-- Running some actions from the start gives a run, by `runOf_path`. -/
theorem actionsFrom_run (conf : Config) (switch : SwitchState) (actions : List Action)
    : Run conf switch (actionsFrom conf switch actions) :=
  runOf_path (next conf) (.start switch) actions

/-- A carried request is the one the switch decodes. -/
theorem Carries.configReq {conf : Config} {sock : Endpoint} {req : PswReq} {f : Frame}
    (h : Carries conf sock req f)
    : configReq conf f = some req := by
  obtain ⟨parses, -, rest, payload⟩ := h
  have long : 42 ≤ f.length := parses.1
  have head : (f.take 42).length = 42 := by simp [long]
  have split : f = f.take 42 ++ (req.store ++ rest) := by
    rw [payload, List.take_append_drop]
  have decoded := decodeReq_store req (f.take 42) rest
  rw [head, ← split] at decoded
  rw [Switch.configReq, if_pos parses]
  exact decoded

/-- A bare datagram carries the request it is made for. -/
theorem carries_bareDatagram (conf : Config) (sock : Endpoint) (req : PswReq)
    : Carries conf sock req (bareDatagram conf sock req.store) := by
  obtain ⟨parses, src⟩ := bareDatagram_header conf sock req.store
  refine ⟨parses, src, ?_⟩
  rw [bareDatagram, List.drop_left' (by simp)]

/-- What `phttp_prism_switch_client_queue_task` does: it appends a request on a port of its own
and sends its datagram.
-/
theorem queueTask_spec {conf : Config} {s after : Channel} {sock : Endpoint} {req : PswReq}
    {userCb : Bool} {packet : XdpMd} (h : queueTask conf s sock req userCb packet = some after)
    : (∀ r ∈ s.reqs, r.live → r.sock ≠ sock)
      ∧ Carries conf sock req packet.frame
      ∧ after
        = {
            s with
              reqs := s.reqs ++ [⟨sock, req, userCb, 0, true⟩]
              toSwitch := ⟨packet, s.reqs.length, req⟩ :: s.toSwitch
          } := by
  simp only [queueTask, Option.ite_none_right_eq_some, Option.some.injEq] at h
  obtain ⟨⟨free, carries⟩, rfl⟩ := h
  exact ⟨free, carries, rfl⟩

/-- What `retry_send` does: it sends the stored request again and counts the retry. -/
theorem retrySend_spec {conf : Config} {s after : Channel} {i : Nat} {packet : XdpMd}
    (h : retrySend conf s i packet = some after)
    : ∃ r,
        s.reqs[i]? = some r
        ∧ r.live
        ∧ Carries conf r.sock r.sbuf packet.frame
        ∧ after
          = {
              s with
                reqs := s.reqs.set i { r with retryCount := r.retryCount + 1 }
                toSwitch := ⟨packet, i, r.sbuf⟩ :: s.toSwitch
            } := by
  obtain ⟨r, found, h⟩ := Option.bind_eq_some_iff.mp h
  simp only [Option.ite_none_right_eq_some, Option.some.injEq] at h
  obtain ⟨⟨live, carries⟩, rfl⟩ := h
  exact ⟨r, found, live, carries, rfl⟩

/-- A reply closes the one open socket it is addressed to, or is lost on arrival. -/
theorem reply_spec {s after : Channel} {j : Nat} (h : reply s j = some after)
    : ∃ d rest,
        take? s.toClient j = some (d, rest)
        ∧ (after = { s with toClient := rest }
          ∨ ∃ i r,
              s.reqs[i]? = some r
              ∧ r.live
              ∧ r.sock = frameDst d.packet.frame
              ∧ after
                = {
                    s with
                      toClient := rest
                      reqs := s.reqs.set i { r with live := false }
                      callbacks := if r.userCb then s.callbacks ++ [i] else s.callbacks
                  }) := by
  obtain ⟨⟨d, rest⟩, taken, rfl⟩ := Option.map_eq_some_iff.mp h
  refine ⟨d, rest, taken, ?_⟩
  simp only [receiver]
  cases held : s.reqs.findIdx? fun r => r.live && r.sock = frameDst d.packet.frame with
  | none => exact Or.inl rfl
  | some i =>
      obtain ⟨bound, holds, -⟩ := List.findIdx?_eq_some_iff_getElem.mp held
      have found : s.reqs[i]? = some s.reqs[i] := List.getElem?_eq_getElem bound
      simp only [Bool.and_eq_true, decide_eq_true_eq] at holds
      refine Or.inr ⟨i, s.reqs[i], found, holds.1, holds.2, ?_⟩
      simp only [onRecv, found]

end PrismHTTP.Control
