import PrismHTTP.Handoff.ManyClients
import PrismHTTP.Switch.FlowRewrite

/-! The client's view of a connection that is handed around.
The control requests of the servers and the rewrites of the switch together keep one promise:
the client talks to the server that accepted its connection, whichever server has it.
-/

namespace PrismHTTP.Handoff
open Switch LossyLink Transition Interleaving

variable {κ ι : Type}

/-- The server that accepted the flow's latest connection. -/
def home (socks : List (HttpClientSocket ι)) : Option ι :=
  ((socks.map fun c => (c.imported, c.serverSock)).filter fun c => !c.1).getLast?.map Prod.snd

/-- Changing a socket changes no home, as long as it stays accepted or imported by its server.
-/
theorem home_set {socks : List (HttpClientSocket ι)} {i : Nat} {hcs after : HttpClientSocket ι}
    (found : socks[i]? = some hcs) (imported : after.imported = hcs.imported)
    (serverSock : after.serverSock = hcs.serverSock)
    : home (socks.set i after) = home socks := by
  obtain ⟨bound, rfl⟩ := List.getElem?_eq_some_iff.mp found
  have same : (socks.set i after).map (fun c => (c.imported, c.serverSock))
      = socks.map fun c => (c.imported, c.serverSock) := by
    rw [List.map_set, imported, serverSock]
    have inside : i < (socks.map fun c => (c.imported, c.serverSock)).length := by simpa using bound
    have kept := List.set_getElem_self inside
    rw [List.getElem_map] at kept
    exact kept
  rw [home, home, same]

/-- The home of a flow is the server that accepted its latest connection. -/
theorem home_accepted (socks : List (HttpClientSocket ι)) {hcs : HttpClientSocket ι}
    (imported : hcs.imported = false)
    : home (socks ++ [hcs]) = some hcs.serverSock := by
  simp [home, imported]

/-- An imported connection leaves the home as it is. -/
theorem home_imported (socks : List (HttpClientSocket ι)) {hcs : HttpClientSocket ι}
    (imported : hcs.imported = true)
    : home (socks ++ [hcs]) = home socks := by
  simp [home, imported]

/-- The endpoint a rule presents to its client. -/
def virtualEndpoint (val : PrismValue) : Endpoint := ⟨val.virtualAddr, val.virtualPort⟩

/-- An accepted connection in use is at the home server, which the rule presents. -/
structure Homed (dep : Deployment ι) (s : Flow ι) : Prop where
  accepted :
    ∀ c ∈ s.socks, c.phase ≠ .gone → c.imported = false → home s.socks = some c.serverSock
  rule :
    ∀ val, s.prism.lookup dep.key = some val →
      ∃ h, home s.socks = some h ∧ virtualEndpoint val = (dep.server h).endpoint

section Flows

variable {dep : Deployment ι}

/-- A socket in use may change its phase. -/
theorem Homed.set {s : Flow ι} (homed : Homed dep s) {i : Nat} {hcs after : HttpClientSocket ι}
    {changed : Flow ι} (socks : changed.socks = s.socks.set i after)
    (prism : changed.prism = s.prism) (found : s.socks[i]? = some hcs) (used : hcs.phase ≠ .gone)
    (imported : after.imported = hcs.imported) (serverSock : after.serverSock = hcs.serverSock)
    : Homed dep changed where
  accepted c listed inUse fresh := by
    rw [socks] at listed ⊢
    rw [home_set found imported serverSock]
    rcases List.mem_or_eq_of_mem_set listed with kept | rfl
    · exact homed.accepted c kept inUse fresh
    · rw [serverSock]
      exact homed.accepted hcs (List.mem_of_getElem? found) used (imported ▸ fresh)
  rule val present := by
    rw [socks, home_set found imported serverSock]
    exact homed.rule val (prism ▸ present)

/-- An answered request waits for a socket in use. -/
theorem Staged.answered_used {s : Flow ι} (staged : Staged dep s) {j : Nat} {task : Task}
    {rest : List Task} (taken : take? s.answered j = some (task, rest))
    {hcs : HttpClientSocket ι} (found : s.socks[task.data]? = some hcs)
    : hcs.phase ≠ .gone := by
  obtain ⟨⟨held, stage, holds⟩, -⟩ := staged
  generalize s.prism.lookup dep.key = rule, s.wire = wire, s.queued = queued,
    s.answered = answered, s.handingOff = handingOff at stage taken
  cases stage with
  | idle | fresh | adding | locking | exporting | inFlight | chowning | serving | deleting =>
      simp at taken
  | @locked i holder =>
      obtain ⟨-, same⟩ := take?_singleton.mp taken
      obtain ⟨rfl, rfl⟩ := Prod.mk.inj same
      have its : (handoffTask dep i holder).data = i := by
        unfold handoffTask
        split <;> rfl
      rw [its] at found
      obtain rfl := Option.some.inj (holds.1.symm.trans found)
      exact holds.2.1
  | @chowned i holder =>
      obtain ⟨-, same⟩ := take?_singleton.mp taken
      obtain ⟨rfl, rfl⟩ := Prod.mk.inj same
      obtain rfl := Option.some.inj (holds.1.symm.trans found)
      exact holds.2.1

/-- ADD is executed for an accepted connection, and presents the server that has it. -/
theorem Staged.add {s : Flow ι} (staged : Staged dep s) {event : Event ι} {add : PswAddReq}
    (executed : s.session.request event = some (.add add))
    : ∃ c ∈ s.socks,
        c.phase ≠ .gone
        ∧ c.imported = false
        ∧ virtualEndpoint add.rule = (dep.server c.serverSock).endpoint := by
  cases event with
  | accept | onRead | startClose | callback | realClose | onHandoff => cases executed
  | execute j =>
      obtain ⟨⟨task, rest⟩, taken, same⟩ := Option.map_eq_some_iff.mp executed
      obtain ⟨⟨held, stage, holds⟩, -⟩ := staged
      dsimp only [Flow.session] at taken same
      have listed := (take?_mem taken).1
      generalize s.prism.lookup dep.key = rule, s.wire = wire, s.queued = queued,
        s.answered = answered, s.handingOff = handingOff at stage listed
      -- of the stages with a task waiting, only the first hand-off has an addition in it
      cases stage with
      | idle | fresh | locked | exporting | inFlight | chowned | serving => cases listed
      | @adding i hcs imported =>
          obtain rfl := List.mem_singleton.mp listed
          simp only [handoffTask, imported, Bool.false_eq_true, ↓reduceIte,
            PswReq.add.injEq] at same
          subst same
          exact ⟨hcs, List.mem_of_getElem? holds.1, holds.2.1, imported, rfl⟩
      | @locking i hcs rule imported =>
          obtain rfl := List.mem_singleton.mp listed
          simp [handoffTask, imported] at same
      | chowning =>
          obtain rfl := List.mem_singleton.mp listed
          cases same
      | deleting =>
          obtain rfl := List.mem_singleton.mp listed
          cases same

/-- Requests keep the presented endpoint, and ADD presents the home server. -/
theorem Homed.execute {s after : Flow ι} (homed : Homed dep s) (staged : Staged dep s) {j : Nat}
    (fired : Handoff.execute s j = some after)
    : Homed dep after := by
  obtain ⟨⟨task, rest⟩, taken, rfl⟩ := Option.map_eq_some_iff.mp fired
  have executed : s.session.request (.execute j : Event ι) = some task.req := by
    simp only [Session.request, Flow.session, taken, Option.map_some]
  obtain ⟨key, meets⟩ := staged.request executed
  rw [← key] at meets
  have feasible :=
    MeetsRule.feasible meets (roomFor_of_not_full (not_full_of_alone staged.alone) task.req)
  obtain ⟨-, stored, acts, lookups⟩ := feasible.execute
  refine ⟨homed.accepted, ?_⟩
  intro val present
  dsimp only at present ⊢
  rw [lookups, key, if_pos rfl] at present
  subst present
  rcases PswReq.onRule_stored acts with ⟨add, same, -, rfl⟩ | ⟨old, was, addr, port, -⟩
  · obtain ⟨c, listed, used, fresh, presents⟩ := staged.add (same ▸ executed)
    exact ⟨c.serverSock, homed.accepted c listed used fresh, presents⟩
  · obtain ⟨h, known, presents⟩ := homed.rule old (key ▸ was)
    refine ⟨h, known, ?_⟩
    rw [virtualEndpoint, addr, port]
    exact presents

/-- A new connection makes its server the home: no other connection is in use, and no rule is
left.
-/
theorem Homed.of_accept {s after : Flow ι} (staged : Staged dep s) {server : ι}
    (fired : Handoff.accept dep s server = some after)
    : Homed dep after := by
  unfold Handoff.accept at fired
  split at fired
  case isFalse => contradiction
  case isTrue idle =>
    obtain rfl := Option.some.inj fired
    obtain ⟨freed, silent, done⟩ := idle
    refine ⟨?_, ?_⟩
    · intro c listed used _
      rcases List.mem_append.mp listed with earlier | new
      · exact absurd (freed c earlier) used
      · obtain rfl := List.mem_singleton.mp new
        exact home_accepted s.socks rfl
    · intro val present
      -- a rule would be that of a flow still under way
      rcases staged.active (by simp [show s.prism.lookup dep.key = some val from present])
        with ⟨c, listed, used⟩ | queued | sent
      · exact absurd (freed c listed) used
      · exact absurd (List.isEmpty_iff.mp done) queued
      · exact absurd (List.isEmpty_iff.mp silent) sent

/-- An imported connection leaves the home as it is. -/
theorem Homed.onHandoff [DecidableEq ι] {s after : Flow ι} (homed : Homed dep s) {j : Nat}
    {res : Response ι} (fired : Handoff.onHandoff dep s j res = some after)
    : Homed dep after := by
  obtain ⟨⟨ho, rest⟩, taken, fired⟩ := Option.bind_eq_some_iff.mp fired
  simp only [Option.ite_none_right_eq_some] at fired
  obtain ⟨-, fired⟩ := fired
  split at fired
  case isFalse =>
    obtain rfl := Option.some.inj fired
    exact ⟨homed.accepted, homed.rule⟩
  case isTrue =>
    obtain rfl := Option.some.inj fired
    refine ⟨?_, ?_⟩
    · intro c listed used fresh
      dsimp only at listed ⊢
      rw [home_imported s.socks rfl]
      rcases List.mem_append.mp listed with earlier | new
      · exact homed.accepted c earlier used fresh
      · obtain rfl := List.mem_singleton.mp new
        contradiction
    · intro val present
      dsimp only
      rw [home_imported s.socks rfl]
      exact homed.rule val present

/-- Every event keeps the home, by cases on the event; only `accept` chooses a new one, and
then no rule is left.
-/
theorem Homed.next [DecidableEq ι] {s after : Flow ι} (homed : Homed dep s)
    (staged : Staged dep s) {event : Event ι} (fired : Handoff.next dep s event = some after)
    : Homed dep after := by
  cases event with
  | accept server => exact .of_accept staged fired
  | onRead i res =>
      obtain ⟨hcs, found, fired⟩ := Option.bind_eq_some_iff.mp fired
      simp only [Option.ite_none_right_eq_some] at fired
      obtain ⟨⟨reading, -⟩, fired⟩ := fired
      split at fired
      case isTrue =>
        obtain rfl := Option.some.inj fired
        exact homed.set rfl rfl found (by simp [reading]) rfl rfl
      case isFalse =>
        obtain rfl := Option.some.inj fired
        exact homed
  | startClose i =>
      obtain ⟨hcs, found, fired⟩ := Option.bind_eq_some_iff.mp fired
      simp only [Option.ite_none_right_eq_some, Option.some.injEq] at fired
      obtain ⟨reading, rfl⟩ := fired
      exact homed.set rfl rfl found (by simp [reading]) rfl rfl
  | execute j => exact homed.execute staged fired
  | callback j =>
      obtain ⟨⟨task, rest⟩, taken, fired⟩ := Option.bind_eq_some_iff.mp fired
      obtain ⟨hcs, found, rfl⟩ := Option.map_eq_some_iff.mp fired
      have used := staged.answered_used taken found
      rcases task.userCb with _ | (_ | _)
      · exact ⟨homed.accepted, homed.rule⟩
      · exact homed.set rfl rfl found used rfl rfl
      · exact homed.set rfl rfl found used rfl rfl
  | realClose i =>
      obtain ⟨hcs, found, fired⟩ := Option.bind_eq_some_iff.mp fired
      cases phase : hcs.phase with
      | reading | stopped | importing | gone => simp [phase] at fired
      | exporting =>
          simp only [phase, Option.some.injEq] at fired
          subst fired
          exact homed.set rfl rfl found (by simp [phase]) rfl rfl
      | closing =>
          simp only [phase] at fired
          split at fired
          case isTrue =>
            obtain rfl := Option.some.inj fired
            exact homed.set rfl rfl found (by simp [phase]) rfl rfl
          case isFalse =>
            obtain rfl := Option.some.inj fired
            exact homed.set rfl rfl found (by simp [phase]) rfl rfl
  | onHandoff j res => exact homed.onHandoff fired

/-- The home is kept in every reachable state, by induction on the run. -/
theorem Reached.homed [DecidableEq ι] {s : Flow ι} (reached : Reached dep s) : Homed dep s := by
  induction reached with
  | start same =>
      subst same
      exact ⟨by simp [Flow.start], by simp [Flow.start]⟩
  | next earlier fired ih => exact ih.next (Reached.staged earlier) fired

/-- Outside a handoff there is no rule and the connection was never imported, or the rule is
unlocked and its owner has the connection.
-/
theorem Staged.unlocked {s : Flow ι} (staged : Staged dep s)
    (unlocked : ¬ LockedFor (s.prism.lookup dep.key))
    : (s.prism.lookup dep.key = none
        ∧ ∀ c ∈ s.socks, c.phase ≠ .gone → c.imported = false)
      ∨ ∃ val,
          s.prism.lookup dep.key = some val
          ∧ val.locked = 0
          ∧ ∀ c ∈ s.socks, c.phase ≠ .gone → val.owner = (dep.server c.serverSock).owner := by
  obtain ⟨⟨held, stage, holds⟩, -⟩ := staged
  -- the only connection in use is the one that holds the session
  have holder {c : HttpClientSocket ι} (listed : c ∈ s.socks) (used : c.phase ≠ .gone)
      : ∃ i, held = some (i, c) := by
    obtain ⟨i, found⟩ := List.getElem?_of_mem listed
    exact ⟨i, holds.unique found used⟩
  generalize s.prism.lookup dep.key = rule, s.wire = wire, s.queued = queued,
    s.answered = answered, s.handingOff = handingOff at stage unlocked ⊢
  -- the stages with a locked rule are excluded, the others have no rule or one of the holder
  cases stage with
  | locked _ _ locked | exporting _ _ locked | inFlight _ locked | chowning _ _ _ locked =>
      exact absurd locked unlocked
  | idle =>
      refine Or.inl ⟨rfl, ?_⟩
      intro c listed used
      obtain ⟨i, held⟩ := holder listed used
      contradiction
  | fresh imported | adding imported =>
      refine Or.inl ⟨rfl, ?_⟩
      intro c listed used
      obtain ⟨i, held⟩ := holder listed used
      obtain ⟨-, rfl⟩ := Prod.mk.inj (Option.some.inj held)
      exact imported
  | locking _ _ _ owned | chowned _ _ _ owned | serving _ _ _ owned =>
      obtain ⟨val, found, zero, owner⟩ := owned
      refine Or.inr ⟨val, found, zero, ?_⟩
      intro c listed used
      obtain ⟨i, held⟩ := holder listed used
      obtain ⟨-, rfl⟩ := Prod.mk.inj (Option.some.inj held)
      exact owner
  | deleting _ owned =>
      obtain ⟨val, found, zero, -⟩ := owned
      refine Or.inr ⟨val, found, zero, ?_⟩
      intro c listed used
      obtain ⟨i, held⟩ := holder listed used
      contradiction

end Flows

def segmentSrc (f : Frame) : Endpoint := ⟨ipSrc f, tcpSrc f⟩

def segmentDst (f : Frame) : Endpoint := ⟨ipDst f, tcpDst f⟩

/-- Reached by a run in which every ADD found room. -/
def ReachedWithRoom [DecidableEq κ] [DecidableEq ι] (cl : Cluster κ ι) (s : Clients κ ι)
    : Prop :=
  Reachable (· = .start κ ι)
    (fun s label after => Room (s.seen label.1) label.2 ∧ cl.next s label = some after) s

section Segments

variable {conf : Config} {st : SwitchState} {md : XdpMd} (tcp : ParsesTcp md.frame)

include tcp

/-- A locked rule drops what goes to its peer. -/
theorem toPeer_dropped (locked : LockedFor (st.prism.lookup (dstKey md.frame)))
    : valeLookup conf st md = ⟨valeBpfDrop, md.frame, st⟩ := by
  obtain ⟨val, found, one⟩ := locked
  simp [valeLookup, valeLookupParse_rules tcp, found, one, PacketCtx.verdict,
    PacketCtx.pastTcp, PacketCtx.init]

/-- A locked rule drops what comes from its peer, to a destination without a rule. -/
theorem fromPeer_dropped (unruled : st.prism.lookup (dstKey md.frame) = none)
    (locked : LockedFor (st.prism.lookup (srcKey md.frame)))
    : valeLookup conf st md = ⟨valeBpfDrop, md.frame, st⟩ := by
  obtain ⟨val, found, one⟩ := locked
  simp [valeLookup, valeLookupParse_rules tcp, unruled, found, one, PacketCtx.verdict,
    PacketCtx.pastTcp, PacketCtx.init]

/-- An unlocked rule has what comes from its peer go on to its owner. -/
theorem fromPeer_passed (unruled : st.prism.lookup (dstKey md.frame) = none) {val : PrismValue}
    (found : st.prism.lookup (srcKey md.frame) = some val) (zero : val.locked = 0)
    : ∃ ctx,
        valeLookupParse conf st md = .gotoL2 ctx
        ∧ SameOutside inFields md.frame ctx.frame
        ∧ segmentDst ctx.frame = ⟨val.ownerAddr, val.ownerPort⟩
        ∧ ethDst ctx.frame = val.ownerMac := by
  obtain ⟨mac, addr, port⟩ := inRewrite_dst tcp.1 val
  refine ⟨{ PacketCtx.pastTcp st md with frame := inRewrite md.frame val, matched := true },
    ?_, inRewrite_same md.frame val, ?_, mac⟩
  · rw [valeLookupParse_rules tcp, unruled, found]
    simp [zero]
  · rw [segmentDst, addr, port]

/-- An unlocked rule has what goes to its peer go on as from its virtual endpoint. -/
theorem toPeer_passed {val : PrismValue}
    (found : st.prism.lookup (dstKey md.frame) = some val) (zero : val.locked = 0)
    : ∃ ctx,
        valeLookupParse conf st md = .gotoL2 ctx
        ∧ SameOutside outFields md.frame ctx.frame
        ∧ segmentSrc ctx.frame = virtualEndpoint val := by
  obtain ⟨addr, port⟩ := outRewrite_src tcp.1 val
  refine ⟨{ PacketCtx.pastTcp st md with frame := outRewrite md.frame val, matched := true },
    ?_, outRewrite_same md.frame val, ?_⟩
  · rw [valeLookupParse_rules tcp, found]
    simp [zero]
  · rw [segmentSrc, addr, port, virtualEndpoint]

/-- Without rules a segment goes on as it is. -/
theorem unruled_passed (out : st.prism.lookup (dstKey md.frame) = none)
    (into : st.prism.lookup (srcKey md.frame) = none)
    : valeLookupParse conf st md = .gotoL2 (.pastTcp st md) := by
  rw [valeLookupParse_rules tcp, out, into]

end Segments

/-- What the switch does for a client whose connection the server `h` accepted. -/
structure Transparent (cl : Cluster κ ι) (s : Clients κ ι) (k : κ) (h : ι) (conf : Config)
    (l2 : L2Table)
    : Prop where
  /-- During a handoff the connection is silent, both ways. -/
  silent :
    LockedFor (s.store.lookup (cl.key k)) →
      ∀ md, ParsesTcp md.frame →
        (segmentSrc md.frame = cl.client k ∧ segmentDst md.frame = (cl.server h).endpoint
          ∨ segmentDst md.frame = cl.client k) →
        valeLookup conf ⟨s.store, l2⟩ md = ⟨valeBpfDrop, md.frame, ⟨s.store, l2⟩⟩
  /-- Otherwise what the client sends to `h` goes on to the server that has the connection. -/
  toHolder :
    ¬ LockedFor (s.store.lookup (cl.key k)) →
      ∀ md, ParsesTcp md.frame →
        segmentSrc md.frame = cl.client k → segmentDst md.frame = (cl.server h).endpoint →
        ∃ ctx,
          valeLookupParse conf ⟨s.store, l2⟩ md = .gotoL2 ctx
          ∧ SameOutside inFields md.frame ctx.frame
          ∧ ∀ c ∈ (s.own k).socks, c.phase ≠ .gone →
              segmentDst ctx.frame = (cl.server c.serverSock).endpoint
              ∧ (c.imported = true → ethDst ctx.frame = (cl.server c.serverSock).serverMac)
  /-- What that server sends to the client goes on as if `h` had sent it. -/
  fromHome :
    ¬ LockedFor (s.store.lookup (cl.key k)) →
      ∀ md, ParsesTcp md.frame →
        ∀ c ∈ (s.own k).socks, c.phase ≠ .gone →
          segmentSrc md.frame = (cl.server c.serverSock).endpoint →
          segmentDst md.frame = cl.client k →
          ∃ ctx,
            valeLookupParse conf ⟨s.store, l2⟩ md = .gotoL2 ctx
            ∧ SameOutside outFields md.frame ctx.frame
            ∧ segmentSrc ctx.frame = (cl.server h).endpoint
  /-- A server that reads from the connection is not in a handoff. -/
  reading :
    ∀ c ∈ (s.own k).socks, c.phase = .reading → ¬ LockedFor (s.store.lookup (cl.key k))

/-- The switch's key for the source is that of the segment's source endpoint. -/
theorem endpointKey_src (f : Frame) : srcKey f = endpointKey (segmentSrc f) := rfl

/-- The switch's key for the destination is that of the segment's destination endpoint. -/
theorem endpointKey_dst (f : Frame) : dstKey f = endpointKey (segmentDst f) := rfl

/-- With room for every ADD each client shares its rule with a flow of its own. -/
theorem ReachedWithRoom.inView [DecidableEq κ] [DecidableEq ι] {cl : Cluster κ ι}
    {s : Clients κ ι} (reached : ReachedWithRoom cl s)
    : InView cl Eq s ∧ Accounted cl s := by
  induction reached with
  | start same => exact same ▸ ⟨inView_start rfl, .start cl⟩
  | next _ fired ih => exact ⟨ih.1.next fired.1 fired.2, ih.2.next fired.2⟩

/-- No rule is kept under a server's endpoint. -/
theorem Accounted.server [DecidableEq ι] {cl : Cluster κ ι} {s : Clients κ ι}
    (accounted : Accounted cl s) (i : ι)
    : s.store.lookup (endpointKey (cl.server i).endpoint) = none := by
  by_contra present
  obtain ⟨k, clash⟩ := accounted.keys _ present
  exact cl.apart k i (endpointKey_injective clash).symm

/-- A flow of its own that has the client's sockets and its rule. -/
structure Backs (cl : Cluster κ ι) (s : Clients κ ι) (k : κ) (own : Flow ι) : Prop where
  staged : Staged (cl.deployment k) own
  homed : Homed (cl.deployment k) own
  socks : own.socks = (s.own k).socks
  rule : s.store.lookup (cl.key k) = own.prism.lookup (cl.deployment k).key

section Clients

variable {cl : Cluster κ ι} {s : Clients κ ι} {k : κ} {own : Flow ι} {h : ι}

section Backed

variable (backs : Backs cl s k own)

include backs

/-- Outside a handoff the connection is at the server that accepted it, without a rule, or
at the owner of its unlocked rule.
-/
theorem Backs.unlocked (accepted : home (s.own k).socks = some h)
    (unlocked : ¬ LockedFor (s.store.lookup (cl.key k)))
    : (s.store.lookup (cl.key k) = none
        ∧ ∀ c ∈ (s.own k).socks, c.phase ≠ .gone → c.serverSock = h ∧ c.imported = false)
      ∨ ∃ val,
          s.store.lookup (cl.key k) = some val
          ∧ val.locked = 0
          ∧ virtualEndpoint val = (cl.server h).endpoint
          ∧ ∀ c ∈ (s.own k).socks, c.phase ≠ .gone →
              val.owner = (cl.server c.serverSock).owner := by
  rw [← backs.socks] at accepted ⊢
  rw [backs.rule] at unlocked ⊢
  rcases backs.staged.unlocked unlocked with ⟨absent, fresh⟩ | ⟨val, found, zero, owner⟩
  · refine Or.inl ⟨absent, ?_⟩
    intro c listed used
    have here := backs.homed.accepted c listed used (fresh c listed used)
    exact ⟨Option.some.inj (here.symm.trans accepted), fresh c listed used⟩
  · obtain ⟨i, known, presents⟩ := backs.homed.rule val found
    obtain rfl := Option.some.inj (known.symm.trans accepted)
    exact Or.inr ⟨val, found, zero, presents, owner⟩

/-- A connection that is read from has no locked rule. -/
theorem Backs.reading {c : HttpClientSocket ι} (listed : c ∈ (s.own k).socks)
    (reads : c.phase = .reading)
    : ¬ LockedFor (s.store.lookup (cl.key k)) := by
  rw [← backs.socks] at listed
  rw [backs.rule]
  obtain ⟨⟨held, stage, holds⟩, -⟩ := backs.staged
  obtain ⟨i, found⟩ := List.getElem?_of_mem listed
  obtain rfl := holds.unique found (by simp [reads])
  rintro ⟨val, there, one⟩
  obtain ⟨-, -, -, -, -, ⟨-, absent⟩ | ⟨-, other, present, zero, -⟩⟩ := stage.of_reading reads
  · rw [absent] at there
    contradiction
  · obtain rfl := Option.some.inj (present.symm.trans there)
    rw [zero] at one
    contradiction

end Backed

variable [DecidableEq ι] (accounted : Accounted cl s) (backs : Backs cl s k own)

include accounted

/-- While the rule is locked, no segment between the client and its servers passes. -/
theorem silent (locked : LockedFor (s.store.lookup (cl.key k))) {md : XdpMd}
    (tcp : ParsesTcp md.frame)
    (between : segmentSrc md.frame = cl.client k ∧ segmentDst md.frame = (cl.server h).endpoint
      ∨ segmentDst md.frame = cl.client k)
    (conf : Config) (l2 : L2Table)
    : valeLookup conf ⟨s.store, l2⟩ md = ⟨valeBpfDrop, md.frame, ⟨s.store, l2⟩⟩ := by
  rcases between with ⟨src, dst⟩ | dst
  · refine fromPeer_dropped tcp ?_ ?_
    · rw [endpointKey_dst, dst]
      exact accounted.server h
    · rw [endpointKey_src, src]
      exact locked
  · refine toPeer_dropped tcp ?_
    rw [endpointKey_dst, dst]
    exact locked

include backs

/-- A segment to the home gets to the server that holds the connection, with nothing changed
but the addresses and checksums, by cases on whether there is a rule.
-/
theorem Backs.toHolder (accepted : home (s.own k).socks = some h)
    (unlocked : ¬ LockedFor (s.store.lookup (cl.key k))) {md : XdpMd}
    (tcp : ParsesTcp md.frame) (src : segmentSrc md.frame = cl.client k)
    (dst : segmentDst md.frame = (cl.server h).endpoint) (conf : Config) (l2 : L2Table)
    : ∃ ctx,
        valeLookupParse conf ⟨s.store, l2⟩ md = .gotoL2 ctx
        ∧ SameOutside inFields md.frame ctx.frame
        ∧ ∀ c ∈ (s.own k).socks, c.phase ≠ .gone →
            segmentDst ctx.frame = (cl.server c.serverSock).endpoint
            ∧ (c.imported = true → ethDst ctx.frame = (cl.server c.serverSock).serverMac) := by
  have out : s.store.lookup (dstKey md.frame) = none := by
    rw [endpointKey_dst, dst]
    exact accounted.server h
  have its : srcKey md.frame = cl.key k := by rw [endpointKey_src, src]; rfl
  rcases backs.unlocked accepted unlocked with ⟨absent, fresh⟩ | ⟨val, found, zero, -, owner⟩
  · rw [← its] at absent
    refine ⟨_, @unruled_passed conf ⟨s.store, l2⟩ md tcp out absent, .refl _ _, ?_⟩
    intro c listed used
    obtain ⟨rfl, notImported⟩ := fresh c listed used
    exact ⟨dst, by simp [notImported]⟩
  · rw [← its] at found
    obtain ⟨ctx, goes, frame, ends, mac⟩ :=
      @fromPeer_passed conf ⟨s.store, l2⟩ md tcp out val found zero
    refine ⟨ctx, goes, frame, ?_⟩
    intro c listed used
    obtain ⟨addr, port, ownerMac⟩ := Owner.mk.inj (owner c listed used)
    rw [ends, mac, addr, port]
    exact ⟨rfl, fun _ => ownerMac⟩

/-- A segment of the holder gets to the client as one of the home, by cases on whether there is
a rule.
-/
theorem Backs.fromHome (accepted : home (s.own k).socks = some h)
    (unlocked : ¬ LockedFor (s.store.lookup (cl.key k))) {md : XdpMd}
    (tcp : ParsesTcp md.frame) {c : HttpClientSocket ι} (listed : c ∈ (s.own k).socks)
    (used : c.phase ≠ .gone) (src : segmentSrc md.frame = (cl.server c.serverSock).endpoint)
    (dst : segmentDst md.frame = cl.client k) (conf : Config) (l2 : L2Table)
    : ∃ ctx,
        valeLookupParse conf ⟨s.store, l2⟩ md = .gotoL2 ctx
        ∧ SameOutside outFields md.frame ctx.frame
        ∧ segmentSrc ctx.frame = (cl.server h).endpoint := by
  have its : dstKey md.frame = cl.key k := by rw [endpointKey_dst, dst]; rfl
  rcases backs.unlocked accepted unlocked with ⟨absent, fresh⟩ | ⟨val, found, zero, presents, -⟩
  · obtain ⟨rfl, -⟩ := fresh c listed used
    have into : s.store.lookup (srcKey md.frame) = none := by
      rw [endpointKey_src, src]
      exact accounted.server _
    rw [← its] at absent
    exact ⟨_, @unruled_passed conf ⟨s.store, l2⟩ md tcp absent into, .refl _ _, src⟩
  · rw [← its] at found
    obtain ⟨ctx, goes, frame, ends⟩ := @toPeer_passed conf ⟨s.store, l2⟩ md tcp val found zero
    exact ⟨ctx, goes, frame, ends.trans presents⟩

end Clients

/-- In every state that any run reaches with room for every ADD, the client of a connection
talks to the server that accepted it, whichever server has it and whatever other clients do.
-/
theorem connection_transparent [DecidableEq κ] [DecidableEq ι] (cl : Cluster κ ι)
    {s : Clients κ ι} (reached : ReachedWithRoom cl s) (k : κ) {h : ι}
    (accepted : home (s.own k).socks = some h) (conf : Config) (l2 : L2Table)
    : Transparent cl s k h conf l2 := by
  obtain ⟨inView, accounted⟩ := reached.inView
  obtain ⟨own, reached, same, rule⟩ := inView k
  have backs : Backs cl s k own :=
    ⟨Reached.staged reached, Reached.homed reached, congrArg Session.socks same, rule⟩
  refine ⟨?_, ?_, ?_, ?_⟩
  · intro locked md tcp between
    exact silent accounted locked tcp between conf l2
  · intro unlocked md tcp src dst
    exact backs.toHolder accounted accepted unlocked tcp src dst conf l2
  · intro unlocked md tcp c listed used src dst
    exact backs.fromHome accounted accepted unlocked tcp listed used src dst conf l2
  · intro c listed reads
    exact backs.reading listed reads

/-- A segment from the first sample client to the server that accepted it. -/
def sampleFromClient : XdpMd where
  frame :=
    [2, 0, 0, 0, 0, 1, 2, 0, 0, 0, 0, 9, 8, 0,
      69, 0, 0, 42, 0, 1, 0, 0, 64, 6, 102, 196, 10, 0, 0, 9, 10, 0, 0, 1,
      31, 144, 0, 80, 0, 0, 0, 1, 0, 0, 0, 2, 80, 16, 1, 0, 18, 125, 0, 0,
      104, 105]
  ingressIfindex := 1

def sampleClientsEnd : Clients Bool Bool :=
  final (.start Bool Bool) (runOf sampleCluster.next (.start Bool Bool) sampleClients)

/-- A segment to the accepting server is redirected to the importing one. -/
theorem connection_transparent_sample
    : ∃ ctx,
        valeLookupParse ⟨1, 2⟩ ⟨sampleClientsEnd.store, .empty⟩ sampleFromClient = .gotoL2 ctx
        ∧ segmentDst ctx.frame = (sampleCluster.server true).endpoint := by
  have reached : ReachedWithRoom sampleCluster sampleClientsEnd :=
    Path.reachable_meeting (runOf_path _ _ _) (by decide +kernel) (.start rfl)
  obtain ⟨c, listed, reads, there⟩ : ∃ c ∈ (sampleClientsEnd.own false).socks,
      c.phase = .reading ∧ c.serverSock = true := by
    decide +kernel
  have transparent := @connection_transparent _ _ _ _ sampleCluster _ reached false false
    (by decide +kernel) ⟨1, 2⟩ .empty
  obtain ⟨ctx, goes, -, ends⟩ := transparent.toHolder (transparent.reading c listed reads)
    sampleFromClient (by decide) (by decide) (by decide)
  exact ⟨ctx, goes, there ▸ (ends c listed (by simp [reads])).1⟩

end PrismHTTP.Handoff
