import PrismHTTP.Control.Channel
import PrismHTTP.Switch.ReplyStatus

/-! Which request a reply is delivered to.
A reply is matched by its destination port alone, so a stale one reaches whichever request
holds the port now. Callbacks are sound in every run that binds a request socket only to a
port for which nothing is left in flight.
-/

namespace PrismHTTP.Control
open ByteLayout Switch LossyLink Transition

/-- Each callback ran at most once, and only for a request the switch has executed. -/
def Sound (s : Channel) : Prop :=
  s.callbacks.Nodup ∧ ∀ i ∈ s.callbacks, i ∈ s.arrived.map Prod.fst

instance (s : Channel) : Decidable (Sound s) := inferInstanceAs (Decidable (_ ∧ _))

/-- A request with a callback is bound to a port that no datagram in flight, a request or a
reply, comes from or goes to.
-/
def FreshPort (s : Channel) : Action → Prop
  | .queueTask sock _ userCb _ =>
      userCb
      → (∀ d ∈ s.toSwitch, frameSrc d.packet.frame ≠ sock)
        ∧ ∀ d ∈ s.toClient, frameDst d.packet.frame ≠ sock
  | _ => True

instance (s : Channel) (action : Action) : Decidable (FreshPort s action) := by
  unfold FreshPort
  cases action <;> infer_instance

/-- No open request with a callback holds the endpoint but the given one. -/
def Owns (reqs : List ConfReq) (origin : Nat) (endpoint : Endpoint) : Prop :=
  ∀ i r, reqs[i]? = some r → r.live → r.userCb → r.sock = endpoint → i = origin

/-- What every run keeps whose binds are fresh: open sockets are distinct, datagrams in
flight belong to the request that holds their client endpoint, replies answer executed
requests and a request whose callback ran is closed.
-/
structure Attributed (conf : Config) (s : Channel) : Prop where
  distinct :
    ∀ (i j : Nat) (r q : ConfReq), s.reqs[i]? = some r → s.reqs[j]? = some q
      → r.live → q.live → r.sock = q.sock → i = j
  carried : ∀ d ∈ s.toSwitch, configReq conf d.packet.frame = some d.request
  requests : ∀ d ∈ s.toSwitch, Owns s.reqs d.origin (frameSrc d.packet.frame)
  replies : ∀ d ∈ s.toClient, Owns s.reqs d.origin (frameDst d.packet.frame)
  answered : ∀ d ∈ s.toClient, d.origin ∈ s.arrived.map Prod.fst
  closed : ∀ i ∈ s.callbacks, ∀ r, s.reqs[i]? = some r → r.live = false
  known : ∀ i ∈ s.callbacks, i < s.reqs.length
  sound : Sound s

/-- Nothing is on its way at the start, and nothing has to be attributed. -/
theorem Attributed.start (conf : Config) (switch : SwitchState)
    : Attributed conf (.start switch) where
  distinct := by simp [Channel.start]
  carried := by simp [Channel.start]
  requests := by simp [Channel.start]
  replies := by simp [Channel.start]
  answered := by simp [Channel.start]
  closed := by simp [Channel.start]
  known := by simp [Channel.start]
  sound := by simp [Channel.start, Sound]

/-- An updated request in place of the old one keeps its socket and does not reopen. -/
structure Updates (old new : ConfReq) : Prop where
  sock : new.sock = old.sock
  userCb : new.userCb = old.userCb
  live : new.live → old.live

/-- A request of the updated list comes from one of the list before, at the same place. -/
theorem Updates.origin {reqs : List ConfReq} {i : Nat} {old new : ConfReq}
    (found : reqs[i]? = some old) (updates : Updates old new) {j : Nat} {r : ConfReq}
    (now : (reqs.set i new)[j]? = some r)
    : ∃ before, reqs[j]? = some before ∧ Updates before r := by
  rw [List.getElem?_set] at now
  split at now
  case isTrue same =>
    subst same
    split at now
    case isTrue =>
      obtain rfl := Option.some.inj now
      exact ⟨old, found, updates⟩
    case isFalse => contradiction
  case isFalse => exact ⟨r, now, rfl, rfl, id⟩

/-- Updating a request leaves who owns which port. -/
theorem Owns.set {reqs : List ConfReq} {i : Nat} {old new : ConfReq}
    (found : reqs[i]? = some old) (updates : Updates old new) {origin : Nat}
    {endpoint : Endpoint} (owns : Owns reqs origin endpoint)
    : Owns (reqs.set i new) origin endpoint := by
  intro j r now live cb sock
  obtain ⟨before, was, kept⟩ := updates.origin found now
  exact owns j before was (kept.live live) (kept.userCb ▸ cb) (kept.sock ▸ sock)

/-- Replacing a request in place keeps everything that is known about the others. -/
theorem Attributed.set {conf : Config} {s : Channel} (h : Attributed conf s) {i : Nat}
    {old new : ConfReq} (found : s.reqs[i]? = some old) (updates : Updates old new)
    : Attributed conf { s with reqs := s.reqs.set i new } where
  distinct := by
    intro j k r q nowJ nowK liveJ liveK sock
    obtain ⟨r', wasJ, keptJ⟩ := updates.origin found nowJ
    obtain ⟨q', wasK, keptK⟩ := updates.origin found nowK
    refine h.distinct j k r' q' wasJ wasK (keptJ.live liveJ) (keptK.live liveK) ?_
    rw [← keptJ.sock, ← keptK.sock, sock]
  carried := h.carried
  requests := fun d sent => (h.requests d sent).set found updates
  replies := fun d sent => (h.replies d sent).set found updates
  answered := h.answered
  closed := by
    intro j fired r now
    obtain ⟨before, was, kept⟩ := updates.origin found now
    cases live : r.live with
    | false => rfl
    | true =>
        have shut := h.closed j fired before was
        rw [kept.live live] at shut
        contradiction
  known := fun j fired => by simpa using h.known j fired
  sound := h.sound

/-- A datagram of an open request's own may join those on their way to the switch. -/
theorem Attributed.send {conf : Config} {s : Channel} (h : Attributed conf s) {i : Nat}
    {r : ConfReq} {packet : XdpMd} (found : s.reqs[i]? = some r) (live : r.live)
    (carries : Carries conf r.sock r.sbuf packet.frame)
    : Attributed conf { s with toSwitch := ⟨packet, i, r.sbuf⟩ :: s.toSwitch } where
  distinct := h.distinct
  carried := by
    intro d sent
    rcases List.mem_cons.mp sent with rfl | old
    · exact carries.configReq
    · exact h.carried d old
  requests := by
    intro d sent
    rcases List.mem_cons.mp sent with rfl | old
    · intro j q now liveQ _ sock
      exact h.distinct j i q r now found liveQ live (sock.trans carries.2.1)
    · exact h.requests d old
  replies := h.replies
  answered := h.answered
  closed := h.closed
  known := h.known
  sound := h.sound

/-- A new request on a fresh port. -/
theorem Attributed.bind {conf : Config} {s : Channel} (h : Attributed conf s)
    {new : ConfReq} (free : ∀ r ∈ s.reqs, r.live → r.sock ≠ new.sock)
    (fresh : new.userCb
      → (∀ d ∈ s.toSwitch, frameSrc d.packet.frame ≠ new.sock)
        ∧ ∀ d ∈ s.toClient, frameDst d.packet.frame ≠ new.sock)
    : Attributed conf { s with reqs := s.reqs ++ [new] } := by
  -- a request known after the step is an old one or the new one at the end
  have split {j : Nat} {r : ConfReq} (now : (s.reqs ++ [new])[j]? = some r)
      : s.reqs[j]? = some r ∨ (j = s.reqs.length ∧ r = new) := by
    rw [List.getElem?_append] at now
    split at now
    case isTrue => exact Or.inl now
    case isFalse past =>
      obtain ⟨bound, rfl⟩ := List.getElem?_eq_some_iff.mp now
      simp only [List.length_singleton] at bound
      exact Or.inr ⟨by omega, by simp⟩
  -- datagrams on their way keep their owner, since none is for the new socket's endpoint
  have owns {origin : Nat} {endpoint : Endpoint} (old : Owns s.reqs origin endpoint)
      (other : new.userCb → endpoint ≠ new.sock)
      : Owns (s.reqs ++ [new]) origin endpoint := by
    intro j r now live cb sock
    rcases split now with was | ⟨-, rfl⟩
    · exact old j r was live cb sock
    · exact absurd sock.symm (other cb)
  refine ⟨?_, h.carried, ?_, ?_, h.answered, ?_, ?_, h.sound⟩
  · intro j k r q nowJ nowK liveJ liveK sock
    rcases split nowJ with wasJ | ⟨rfl, rfl⟩
    · rcases split nowK with wasK | ⟨rfl, rfl⟩
      · exact h.distinct j k r q wasJ wasK liveJ liveK sock
      · exact absurd sock (free r (List.mem_of_getElem? wasJ) liveJ)
    · rcases split nowK with wasK | ⟨rfl, rfl⟩
      · exact absurd sock.symm (free q (List.mem_of_getElem? wasK) liveK)
      · rfl
  · exact fun d sent => owns (h.requests d sent) fun cb => (fresh cb).1 d sent
  · exact fun d sent => owns (h.replies d sent) fun cb => (fresh cb).2 d sent
  · intro j fired r now
    rcases split now with was | ⟨rfl, -⟩
    · exact h.closed j fired r was
    · exact absurd (h.known _ fired) (Nat.lt_irrefl _)
  · intro j fired
    have bound := h.known j fired
    simp only [List.length_append, List.length_singleton]
    omega

/-- Links that carry no more than before. -/
theorem Attributed.fewer {conf : Config} {s : Channel} (h : Attributed conf s)
    {toSwitch toClient : List Datagram} (requests : toSwitch ⊆ s.toSwitch)
    (replies : toClient ⊆ s.toClient)
    : Attributed conf { s with toSwitch, toClient } where
  distinct := h.distinct
  carried := fun d sent => h.carried d (requests sent)
  requests := fun d sent => h.requests d (requests sent)
  replies := fun d sent => h.replies d (replies sent)
  answered := fun d sent => h.answered d (replies sent)
  closed := h.closed
  known := h.known
  sound := h.sound

/-- An arrival is recorded before its answer is sent, and the answer goes to the socket the
request came from.
-/
theorem Attributed.arrive {conf : Config} {s after : Channel} {j : Nat}
    (h : Attributed conf s) (fired : Control.arrive conf s j = some after)
    : Attributed conf after := by
  obtain ⟨⟨d, rest⟩, taken, rfl⟩ := Option.map_eq_some_iff.mp fired
  obtain ⟨sent, fewer⟩ := take?_mem taken
  -- the switch answers to the endpoint the request came from
  have backTo := (answers_of_configReq (h.carried d sent) s.switch).reply_address.2
  dsimp only
  generalize logged : (if d.origin ∈ s.arrived.map Prod.fst then s.arrived
    else s.arrived ++ [(d.origin, d.request)]) = arrived
  have known : d.origin ∈ arrived.map Prod.fst := by
    rw [← logged]
    split
    case isTrue old => exact old
    case isFalse => simp
  have grows : ∀ k ∈ s.arrived.map Prod.fst, k ∈ arrived.map Prod.fst := by
    intro k old
    rw [← logged]
    split
    case isTrue => exact old
    case isFalse =>
      rw [List.map_append]
      exact List.mem_append_left _ old
  -- what held of the replies on their way has to be shown of the new one only
  have cases_ {p : Datagram → Prop} (old : ∀ e ∈ s.toClient, p e)
      (new : p { d with
        packet := ⟨(valeLookup conf s.switch d.packet).frame,
          (valeLookup conf s.switch d.packet).port⟩ })
      : ∀ e ∈ (if (valeLookup conf s.switch d.packet).port = valeBpfDrop then s.toClient
          else { d with
            packet := ⟨(valeLookup conf s.switch d.packet).frame,
              (valeLookup conf s.switch d.packet).port⟩ } :: s.toClient), p e := by
    split
    case isTrue => exact old
    case isFalse => exact List.forall_mem_cons.mpr ⟨new, old⟩
  refine ⟨h.distinct, fun e left => h.carried e (fewer left),
    fun e left => h.requests e (fewer left), ?_, ?_, h.closed, h.known, h.sound.1,
    fun k ran => grows k (h.sound.2 k ran)⟩
  · refine cases_ h.replies ?_
    simp only [backTo]
    exact h.requests d sent
  · exact cases_ (fun e old => grows _ (h.answered e old)) known

/-- A callback runs for the request its reply was sent for, which then is closed. -/
theorem Attributed.reply {conf : Config} {s after : Channel} {j : Nat}
    (h : Attributed conf s) (fired : Control.reply s j = some after)
    : Attributed conf after := by
  obtain ⟨d, rest, taken, rfl | ⟨i, r, found, live, sock, rfl⟩⟩ := reply_spec fired
  · exact h.fewer (List.Subset.refl _) (take?_mem taken).2
  · obtain ⟨sent, fewer⟩ := take?_mem taken
    have bound : i < s.reqs.length := (List.getElem?_eq_some_iff.mp found).1
    have closes : Updates r { r with live := false } := ⟨rfl, rfl, fun open_ => by contradiction⟩
    have shut := (h.fewer (List.Subset.refl _) fewer).set found closes
    by_cases cb : r.userCb = true
    -- only the request the reply answers can hold the socket it came to
    · have own : i = d.origin := h.replies d sent i r found live cb sock
      have unfired : i ∉ s.callbacks := by
        intro ran
        rw [h.closed i ran r found] at live
        contradiction
      rw [if_pos cb]
      refine ⟨shut.distinct, shut.carried, shut.requests, shut.replies, shut.answered, ?_,
        ?_, ?_, ?_⟩
      · intro k ran q now
        rcases List.mem_append.mp ran with old | new
        · exact shut.closed k old q now
        · obtain rfl := List.mem_singleton.mp new
          rw [List.getElem?_set_self bound] at now
          obtain rfl := Option.some.inj now
          rfl
      · intro k ran
        rcases List.mem_append.mp ran with old | new
        · exact shut.known k old
        · obtain rfl := List.mem_singleton.mp new
          simpa using bound
      · refine List.nodup_append.mpr ⟨h.sound.1, List.nodup_singleton i, ?_⟩
        intro k old k' new same
        obtain rfl := List.mem_singleton.mp new
        exact unfired (same ▸ old)
      · intro k ran
        rcases List.mem_append.mp ran with old | new
        · exact h.sound.2 k old
        · obtain rfl := List.mem_singleton.mp new
          rw [own]
          exact h.answered d sent
    · rw [if_neg cb]
      exact shut

/-- Every step whose bind, if it is one, is fresh keeps the attribution of datagrams. -/
theorem Attributed.next {conf : Config} {s after : Channel} {action : Action}
    (h : Attributed conf s) (fresh : FreshPort s action)
    (fired : Control.next conf s action = some after)
    : Attributed conf after := by
  cases action with
  | queueTask sock req userCb packet =>
      obtain ⟨free, carries, rfl⟩ := queueTask_spec fired
      have bound := @Attributed.bind _ _ h ⟨sock, req, userCb, 0, true⟩ free fresh
      have last : (s.reqs ++ [(⟨sock, req, userCb, 0, true⟩ : ConfReq)])[s.reqs.length]?
          = some ⟨sock, req, userCb, 0, true⟩ := List.getElem?_concat_length
      exact bound.send last rfl carries
  | retrySend i packet =>
      obtain ⟨r, found, live, carries, rfl⟩ := retrySend_spec fired
      have counted : Updates r { r with retryCount := r.retryCount + 1 } := ⟨rfl, rfl, id⟩
      exact (h.send found live carries).set found counted
  | requestNoise noise =>
      obtain ⟨flight, noisy, rfl⟩ := Option.map_eq_some_iff.mp fired
      exact h.fewer (noise.subset noisy) (List.Subset.refl _)
  | replyNoise noise =>
      obtain ⟨flight, noisy, rfl⟩ := Option.map_eq_some_iff.mp fired
      exact h.fewer (List.Subset.refl _) (noise.subset noisy)
  | arrive j => exact h.arrive fired
  | reply j => exact h.reply fired

/-- In every run that binds requests to fresh ports only, each callback runs at most once
and only after the switch executed its request.
-/
theorem callbacks_sound {conf : Config} {switch : SwitchState}
    {run : List (Action × Channel)} (path : Run conf switch run)
    (fresh : EveryStep FreshPort (.start switch) run)
    : EveryState Sound (.start switch) run := by
  have kept := Path.everyState (I := Attributed conf) path (.start conf switch)
    (fun _ _ _ attributed fresh fired => attributed.next fresh fired) fresh
  exact kept.mono fun _ attributed => attributed.sound

/-- A request is retried and executed twice, and its socket closes on the first reply; then
another request is bound to the given port and the second reply is delivered.
-/
def staleReply (port : UInt16) : List Action :=
  let conf : Config := ⟨1, 2⟩
  let sock : Endpoint := ⟨0x0300000a, 0x3930⟩
  let later : Endpoint := ⟨0x0300000a, port⟩
  let first : PswReq := .lock { status := 0, peerAddr := 0x0200000a, peerPort := 0x901f }
  let second : PswReq := .lock { status := 0, peerAddr := 0x0400000a, peerPort := 0x901f }
  [.queueTask sock first true ⟨bareDatagram conf sock first.store, 1⟩,
    .retrySend 0 ⟨bareDatagram conf sock first.store, 1⟩,
    .arrive 0,
    .arrive 0,
    .reply 0,
    .queueTask later second true ⟨bareDatagram conf later second.store, 1⟩,
    .reply 0]

/-- With another port for the second request the stale reply starts no wrong callback. -/
theorem callbacks_sound_otherPort
    : EveryState Sound (.start .empty) (actionsFrom ⟨1, 2⟩ .empty (staleReply 0x3a30)) :=
  callbacks_sound (actionsFrom_run ⟨1, 2⟩ .empty (staleReply 0x3a30)) (by decide +kernel)

/-- With the port of the closed socket, the second request's callback runs before the
request has arrived.
-/
theorem samePort_unsound
    : Run ⟨1, 2⟩ .empty (actionsFrom ⟨1, 2⟩ .empty (staleReply 0x3930))
      ∧ ¬ EveryState Sound (.start .empty) (actionsFrom ⟨1, 2⟩ .empty (staleReply 0x3930)) := by
  refine ⟨actionsFrom_run _ _ _, fun every => ?_⟩
  have last : ¬ Sound
      (final (.start .empty) (actionsFrom ⟨1, 2⟩ .empty (staleReply 0x3930))) := by
    decide +kernel
  exact last every.final

end PrismHTTP.Control
