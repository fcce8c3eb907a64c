import PrismHTTP.Handoff.Flow
import PrismHTTP.Library.Transition

/-! Who holds the flow's socket, and when.
A reachable state is in one of eleven stages, each fixing the sockets, the requests and
messages under way and the rule together; safety is read off the stages.
-/

namespace PrismHTTP.Handoff
open Switch LossyLink Transition

variable {ι : Type} {dep : Deployment ι}

/-- Every socket is freed but the given one. -/
def Holds (socks : List (HttpClientSocket ι)) : Option (Nat × HttpClientSocket ι) → Prop
  | none => ∀ c ∈ socks, c.phase = .gone
  | some (i, hcs) =>
      socks[i]? = some hcs
      ∧ hcs.phase ≠ .gone
      ∧ ∀ (j : Nat) (c : HttpClientSocket ι), socks[j]? = some c → j ≠ i → c.phase = .gone

/-- A socket that is not freed is the one held. -/
theorem Holds.unique {socks : List (HttpClientSocket ι)}
    {held : Option (Nat × HttpClientSocket ι)} (h : Holds socks held) {i : Nat}
    {hcs : HttpClientSocket ι} (found : socks[i]? = some hcs) (used : hcs.phase ≠ .gone)
    : held = some (i, hcs) := by
  cases held with
  | none => exact absurd (h hcs (List.mem_of_getElem? found)) used
  | some holder =>
      obtain ⟨at_, -, others⟩ := h
      by_cases same : i = holder.1
      · subst same
        obtain rfl := Option.some.inj (at_.symm.trans found)
        rfl
      · exact absurd (others i hcs found same) used

/-- The holder stays the holder while its socket is in use. -/
theorem Holds.set {socks : List (HttpClientSocket ι)} {i : Nat}
    {hcs after : HttpClientSocket ι} (h : Holds socks (some (i, hcs)))
    (used : after.phase ≠ .gone)
    : Holds (socks.set i after) (some (i, after)) := by
  obtain ⟨at_, -, others⟩ := h
  have bound := (List.getElem?_eq_some_iff.mp at_).1
  refine ⟨List.getElem?_set_self bound, used, ?_⟩
  intro j c found other
  rw [List.getElem?_set_ne (Ne.symm other)] at found
  exact others j c found other

/-- Freeing the holder's socket leaves no holder. -/
theorem Holds.free {socks : List (HttpClientSocket ι)} {i : Nat}
    {hcs after : HttpClientSocket ι} (h : Holds socks (some (i, hcs)))
    (freed : after.phase = .gone)
    : Holds (socks.set i after) none := by
  obtain ⟨-, -, others⟩ := h
  intro c listed
  obtain ⟨j, found⟩ := List.getElem?_of_mem listed
  by_cases same : j = i
  · subst same
    rw [List.getElem?_set] at found
    simp only [↓reduceIte] at found
    split at found
    case isTrue =>
      obtain rfl := Option.some.inj found
      exact freed
    case isFalse => contradiction
  · rw [List.getElem?_set_ne (Ne.symm same)] at found
    exact others j c found same

/-- A new socket in use is the holder when there was none. -/
theorem Holds.append {socks : List (HttpClientSocket ι)} (h : Holds socks none)
    {hcs : HttpClientSocket ι} (used : hcs.phase ≠ .gone)
    : Holds (socks ++ [hcs]) (some (socks.length, hcs)) := by
  refine ⟨List.getElem?_concat_length, used, ?_⟩
  intro j c found other
  rw [List.getElem?_append] at found
  split at found
  case isTrue => exact h c (List.mem_of_getElem? found)
  case isFalse past =>
    have bound := (List.getElem?_eq_some_iff.mp found).1
    simp only [List.length_singleton] at bound
    omega

/-- The rule is locked. -/
def LockedFor (rule : Option PrismValue) : Prop := ∃ val, rule = some val ∧ val.locked = 1

/-- The rule is unlocked and directs the flow to this owner. -/
def OwnedBy (owner : Owner) (rule : Option PrismValue) : Prop :=
  ∃ val, rule = some val ∧ val.locked = 0 ∧ val.owner = owner

/-- The stages of a flow: the socket held, the requests queued and answered, the messages on
their way, the rule and whether a handoff is open.
-/
inductive Stage (dep : Deployment ι)
    : Option (Nat × HttpClientSocket ι) → List Task → List Task → List (HandoffReq ι)
      → Option PrismValue → Bool → Prop
  /-- No connection and no rule. -/
  | idle : Stage dep none [] [] [] none false
  /-- Accepted by its first server, or closing there. -/
  | fresh {i hcs} (imported : hcs.imported = false)
    (phase : hcs.phase = .reading ∨ hcs.phase = .closing) (peer : hcs.peername = dep.client)
    : Stage dep (some (i, hcs)) [] [] [] none false
  | adding {i hcs} (imported : hcs.imported = false) (phase : hcs.phase = .stopped)
    (peer : hcs.peername = dep.client)
    : Stage dep (some (i, hcs)) [handoffTask dep i hcs] [] [] none false
  | locking {i hcs rule} (imported : hcs.imported = true) (phase : hcs.phase = .stopped)
    (peer : hcs.peername = dep.client)
    (owned : OwnedBy (dep.server hcs.serverSock).owner rule)
    : Stage dep (some (i, hcs)) [handoffTask dep i hcs] [] [] rule false
  /-- ADD or LOCK is executed, and its callback is due. -/
  | locked {i hcs rule} (phase : hcs.phase = .stopped) (peer : hcs.peername = dep.client)
    (locked : LockedFor rule)
    : Stage dep (some (i, hcs)) [] [handoffTask dep i hcs] [] rule true
  | exporting {i hcs rule} (phase : hcs.phase = .exporting) (peer : hcs.peername = dep.client)
    (locked : LockedFor rule)
    : Stage dep (some (i, hcs)) [] [] [] rule true
  | inFlight {ho rule} (peer : ho.peer = dep.client) (locked : LockedFor rule)
    : Stage dep none [] [] [ho] rule true
  | chowning {i hcs rule} (imported : hcs.imported = true) (phase : hcs.phase = .importing)
    (peer : hcs.peername = dep.client) (locked : LockedFor rule)
    : Stage dep (some (i, hcs)) [chownTask dep i hcs] [] [] rule true
  | chowned {i hcs rule} (imported : hcs.imported = true) (phase : hcs.phase = .importing)
    (peer : hcs.peername = dep.client)
    (owned : OwnedBy (dep.server hcs.serverSock).owner rule)
    : Stage dep (some (i, hcs)) [] [chownTask dep i hcs] [] rule false
  /-- Served by the server it was imported to, or closing there. -/
  | serving {i hcs rule} (imported : hcs.imported = true)
    (phase : hcs.phase = .reading ∨ hcs.phase = .closing) (peer : hcs.peername = dep.client)
    (owned : OwnedBy (dep.server hcs.serverSock).owner rule)
    : Stage dep (some (i, hcs)) [] [] [] rule false
  | deleting {i} {hcs : HttpClientSocket ι} {owner rule} (peer : hcs.peername = dep.client)
    (owned : OwnedBy owner rule)
    : Stage dep none [deleteTask i hcs] [] [] rule false

/-- The invariant of a flow: it is in some stage, and the table holds no other rule. -/
structure Staged (dep : Deployment ι) (s : Flow ι) : Prop where
  stage :
    ∃ held,
      Stage dep held s.queued s.answered s.wire (s.prism.lookup dep.key) s.handingOff
      ∧ Holds s.socks held
  alone : ∀ key, key ≠ dep.key → s.prism.lookup key = none

/-- Before the first connection the flow is idle. -/
theorem Staged.start (dep : Deployment ι) : Staged dep (.start ι) where
  stage := ⟨none, by simpa [Flow.start] using Stage.idle, by simp [Flow.start, Holds]⟩
  alone := by simp [Flow.start]

/-- A table with at most one rule has room for another. -/
theorem not_full_of_alone {prism : PrismTable} {key : PrismKey}
    (alone : ∀ other, other ≠ key → prism.lookup other = none)
    : ¬ prism.Full := by
  have few : prism.entries.keys ⊆ {key} := by
    intro other listed
    by_contra different
    have absent := alone other (by simpa using different)
    have present := Finmap.lookup_isSome.mpr (Finmap.mem_keys.mp listed)
    rw [BoundedMap.lookup] at absent
    rw [absent] at present
    contradiction
  have bound := Finset.card_le_card few
  simp only [Finset.card_singleton] at bound
  simp only [BoundedMap.Full]
  omega

/-- A request of this flow that the rule admits replaces the rule and no other. -/
theorem execute_rule {prism : PrismTable} {req : PswReq} {stored : Option PrismValue}
    (own : req.key = dep.key) (alone : ∀ key, key ≠ dep.key → prism.lookup key = none)
    (acts : req.onRule (prism.lookup dep.key) = .ok stored)
    : (req.execute prism).1.lookup dep.key = stored
      ∧ ∀ key, key ≠ dep.key → (req.execute prism).1.lookup key = none := by
  have feasible : req.Feasible prism := by
    rw [← own] at acts
    cases found : prism.lookup req.key with
    | none =>
        rw [found] at acts
        cases req with
        | add req => exact ⟨found, not_full_of_alone alone⟩
        | delete req | chown req | lock req | unlock req => simp [PswReq.onRule] at acts
    | some val =>
        rw [found] at acts
        cases req with
        | add req => simp [PswReq.onRule] at acts
        | delete req | chown req | lock req | unlock req =>
            exact Option.isSome_iff_exists.mpr ⟨val, found⟩
  obtain ⟨-, stored', acts', lookups⟩ := feasible.execute
  rw [own] at acts' lookups
  obtain rfl : stored = stored' := Except.ok.inj (acts.symm.trans acts')
  refine ⟨by rw [lookups, if_pos rfl], ?_⟩
  intro key other
  rw [lookups, if_neg other, alone key other]

/-- ADD and LOCK of a handoff are about the client's endpoint. -/
theorem handoffTask_key {i : Nat} {hcs : HttpClientSocket ι} (peer : hcs.peername = dep.client)
    : (handoffTask dep i hcs).req.key = dep.key := by
  unfold handoffTask
  split <;> simp [PswReq.key, Deployment.key, peer]

/-- CHOWN is about the client's endpoint. -/
theorem chownTask_key {i : Nat} {hcs : HttpClientSocket ι} (peer : hcs.peername = dep.client)
    : (chownTask dep i hcs).req.key = dep.key := by
  simp [chownTask, PswReq.key, Deployment.key, peer]

/-- DELETE is about the client's endpoint. -/
theorem deleteTask_key {i : Nat} {hcs : HttpClientSocket ι} (peer : hcs.peername = dep.client)
    : (deleteTask i hcs).req.key = dep.key := by
  simp [deleteTask, PswReq.key, Deployment.key, peer]

/-- An accepted connection makes an idle flow a fresh one: with every socket freed, no other
stage is possible.
-/
theorem Staged.accept {s after : Flow ι} (h : Staged dep s) {server : ι}
    (fired : Handoff.accept dep s server = some after)
    : Staged dep after := by
  obtain ⟨socks, queued, answered, wire, prism, handingOff⟩ := s
  obtain ⟨⟨held, stage, holds⟩, alone⟩ := h
  simp only [Handoff.accept, Option.ite_none_right_eq_some, Option.some.injEq,
    List.isEmpty_iff] at fired
  obtain ⟨⟨freed, rfl, rfl⟩, rfl⟩ := fired
  -- a held socket would not be freed, so there is none
  have none_held : held = none := by
    cases held with
    | none => rfl
    | some holder => exact absurd (freed _ (List.mem_of_getElem? holds.1)) holds.2.1
  subst none_held
  refine ⟨?_, alone⟩
  dsimp only at stage ⊢
  generalize prism.lookup dep.key = rule at stage
  cases stage with
  | idle => exact ⟨_, .fresh rfl (Or.inl rfl) rfl, holds.append (by simp)⟩

/-- A reading socket is that of an accepted or an imported connection, with nothing else
under way.
-/
theorem Stage.of_reading {i : Nat} {hcs : HttpClientSocket ι} {queued answered : List Task}
    {wire : List (HandoffReq ι)} {rule : Option PrismValue} {handingOff : Bool}
    (stage : Stage dep (some (i, hcs)) queued answered wire rule handingOff)
    (reading : hcs.phase = .reading)
    : queued = []
      ∧ answered = []
      ∧ wire = []
      ∧ handingOff = false
      ∧ hcs.peername = dep.client
      ∧ (hcs.imported = false ∧ rule = none
        ∨ hcs.imported = true ∧ OwnedBy (dep.server hcs.serverSock).owner rule) := by
  cases stage with
  | fresh imported _ peer => exact ⟨rfl, rfl, rfl, rfl, peer, Or.inl ⟨imported, rfl⟩⟩
  | serving imported _ peer owned =>
      exact ⟨rfl, rfl, rfl, rfl, peer, Or.inr ⟨imported, owned⟩⟩
  | adding _ phase | locking _ phase | locked phase | exporting phase | chowning _ phase
  | chowned _ phase =>
      rw [phase] at reading
      contradiction

/-- A read leaves the stage as it is, or starts a handoff: ADD for an accepted connection, LOCK
for an imported one.
-/
theorem Staged.onRead {s after : Flow ι} (h : Staged dep s) {i : Nat} {res : Response ι}
    (fired : Handoff.onRead dep s i res = some after)
    : Staged dep after := by
  obtain ⟨hcs, found, fired⟩ := Option.bind_eq_some_iff.mp fired
  obtain ⟨⟨held, stage, holds⟩, alone⟩ := h
  simp only [Option.ite_none_right_eq_some] at fired
  obtain ⟨⟨reading, -⟩, fired⟩ := fired
  obtain rfl := holds.unique found (by simp [reading])
  split at fired
  case isFalse =>
    obtain rfl := Option.some.inj fired
    exact ⟨⟨_, stage, holds⟩, alone⟩
  case isTrue =>
    obtain rfl := Option.some.inj fired
    obtain ⟨none_queued, none_answered, none_sent, closed, peer, rule⟩ :=
      stage.of_reading reading
    refine ⟨⟨some (i, { hcs with phase := .stopped, handoffDest := res.handoffDest }), ?_,
      holds.set (by simp)⟩, alone⟩
    dsimp only
    rw [none_queued, none_answered, none_sent, closed, List.nil_append]
    rcases rule with ⟨imported, absent⟩ | ⟨imported, owned⟩
    · rw [absent]
      exact .adding imported rfl peer
    · exact .locking imported rfl peer owned

/-- A connection that starts to close stays in its stage. -/
theorem Staged.startClose {s after : Flow ι} (h : Staged dep s) {i : Nat}
    (fired : Handoff.startClose s i = some after)
    : Staged dep after := by
  obtain ⟨hcs, found, fired⟩ := Option.bind_eq_some_iff.mp fired
  obtain ⟨⟨held, stage, holds⟩, alone⟩ := h
  simp only [Option.ite_none_right_eq_some, Option.some.injEq] at fired
  obtain ⟨reading, rfl⟩ := fired
  obtain rfl := holds.unique found (by simp [reading])
  obtain ⟨none_queued, none_answered, none_sent, closed, peer, rule⟩ :=
    stage.of_reading reading
  refine ⟨⟨some (i, { hcs with phase := .closing }), ?_, holds.set (by simp)⟩, alone⟩
  dsimp only
  rw [none_queued, none_answered, none_sent, closed]
  rcases rule with ⟨imported, absent⟩ | ⟨imported, owned⟩
  · rw [absent]
    exact .fresh imported (Or.inr rfl) peer
  · exact .serving imported (Or.inr rfl) peer owned

/-- ADD puts a locked rule where there is none, and LOCK locks an unlocked one. -/
theorem handoffTask_locks {i : Nat} {hcs : HttpClientSocket ι} {rule : Option PrismValue}
    (admits : hcs.imported = false ∧ rule = none
      ∨ hcs.imported = true ∧ OwnedBy (dep.server hcs.serverSock).owner rule)
    : ∃ stored,
        (handoffTask dep i hcs).req.onRule rule = .ok stored
        ∧ LockedFor stored
        ∧ opensHandoff (handoffTask dep i hcs).req false = true
        ∧ (handoffTask dep i hcs).userCb = some .afterConfigureSwitch := by
  rcases admits with ⟨imported, rfl⟩ | ⟨imported, val, rfl, unlocked, -⟩
  · simp only [handoffTask, imported, Bool.false_eq_true, ↓reduceIte]
    exact ⟨_, rfl, ⟨_, rfl, rfl⟩, rfl, trivial⟩
  · simp only [handoffTask, imported, ↓reduceIte]
    exact ⟨_, rfl, ⟨_, rfl, by simp [unlocked]⟩, rfl, trivial⟩

/-- CHOWN unlocks the rule it finds locked and names the importing server. -/
theorem chownTask_unlocks {i : Nat} {hcs : HttpClientSocket ι} {rule : Option PrismValue}
    (locked : LockedFor rule)
    : ∃ stored,
        (chownTask dep i hcs).req.onRule rule = .ok stored
        ∧ OwnedBy (dep.server hcs.serverSock).owner stored := by
  obtain ⟨val, rfl, one⟩ := locked
  exact ⟨_, rfl, _, rfl, by simp [one], rfl⟩

/-- DELETE removes the rule it finds. -/
theorem deleteTask_removes {i : Nat} {hcs : HttpClientSocket ι} {owner : Owner}
    {rule : Option PrismValue} (owned : OwnedBy owner rule)
    : (deleteTask i hcs).req.onRule rule = .ok none := by
  obtain ⟨val, rfl, -⟩ := owned
  rfl

/-- The switch executes ADD, LOCK, CHOWN or DELETE, by cases on the stages in which one is
queued; each meets the rule it is meant for.
-/
theorem Staged.execute {s after : Flow ι} (h : Staged dep s) {j : Nat}
    (fired : Handoff.execute s j = some after)
    : Staged dep after := by
  obtain ⟨socks, queued, answered, wire, prism, handingOff⟩ := s
  obtain ⟨⟨held, stage, holds⟩, alone⟩ := h
  obtain ⟨⟨task, rest⟩, taken, rfl⟩ := Option.map_eq_some_iff.mp fired
  dsimp only at stage taken holds alone ⊢
  generalize found : prism.lookup dep.key = rule at stage
  -- a request is queued in four of the stages only
  cases stage with
  | idle | fresh | locked | exporting | inFlight | chowned | serving => simp at taken
  | @adding i hcs imported phase peer =>
      obtain ⟨-, same⟩ := take?_singleton.mp taken
      obtain ⟨rfl, rfl⟩ := Prod.mk.inj same
      obtain ⟨stored, acts, locked, opens, waits⟩ :=
        @handoffTask_locks _ dep i hcs _ (Or.inl ⟨imported, rfl⟩)
      obtain ⟨now, others⟩ := execute_rule (handoffTask_key peer) alone (found ▸ acts)
      refine ⟨⟨some (i, hcs), ?_, holds⟩, others⟩
      dsimp only
      rw [now, opens, waits]
      exact .locked phase peer locked
  | @locking i hcs rule imported phase peer owned =>
      obtain ⟨-, same⟩ := take?_singleton.mp taken
      obtain ⟨rfl, rfl⟩ := Prod.mk.inj same
      obtain ⟨stored, acts, locked, opens, waits⟩ :=
        @handoffTask_locks _ dep i hcs _ (Or.inr ⟨imported, owned⟩)
      obtain ⟨now, others⟩ := execute_rule (handoffTask_key peer) alone (found ▸ acts)
      refine ⟨⟨some (i, hcs), ?_, holds⟩, others⟩
      dsimp only
      rw [now, opens, waits]
      exact .locked phase peer locked
  | @chowning i hcs rule imported phase peer locked =>
      obtain ⟨-, same⟩ := take?_singleton.mp taken
      obtain ⟨rfl, rfl⟩ := Prod.mk.inj same
      obtain ⟨stored, acts, owned⟩ := @chownTask_unlocks _ dep i hcs _ locked
      obtain ⟨now, others⟩ := execute_rule (chownTask_key peer) alone (found ▸ acts)
      refine ⟨⟨some (i, hcs), ?_, holds⟩, others⟩
      dsimp only
      rw [now]
      exact .chowned imported phase peer owned
  | deleting peer owned =>
      obtain ⟨-, same⟩ := take?_singleton.mp taken
      obtain ⟨rfl, rfl⟩ := Prod.mk.inj same
      obtain ⟨now, others⟩ :=
        execute_rule (deleteTask_key peer) alone (found ▸ deleteTask_removes owned)
      refine ⟨⟨none, ?_, holds⟩, others⟩
      dsimp only
      rw [now]
      exact .idle

/-- A callback starts the export after ADD or LOCK and the service after CHOWN, by cases on the
stages in which one is due.
-/
theorem Staged.callback {s after : Flow ι} (h : Staged dep s) {j : Nat}
    (fired : Handoff.callback s j = some after)
    : Staged dep after := by
  obtain ⟨socks, queued, answered, wire, prism, handingOff⟩ := s
  obtain ⟨⟨held, stage, holds⟩, alone⟩ := h
  obtain ⟨⟨task, rest⟩, taken, fired⟩ := Option.bind_eq_some_iff.mp fired
  obtain ⟨hcs, found, rfl⟩ := Option.map_eq_some_iff.mp fired
  dsimp only at stage taken found holds alone ⊢
  generalize now : prism.lookup dep.key = rule at stage
  -- a callback is due in two of the stages only
  cases stage with
  | idle | fresh | adding | locking | exporting | inFlight | chowning | serving | deleting =>
      simp at taken
  | @locked i holder _ phase peer locked =>
      obtain ⟨-, same⟩ := take?_singleton.mp taken
      obtain ⟨rfl, rfl⟩ := Prod.mk.inj same
      have waits : (handoffTask dep i holder).userCb = some .afterConfigureSwitch
          ∧ (handoffTask dep i holder).data = i := by
        unfold handoffTask
        split <;> exact ⟨rfl, rfl⟩
      rw [waits.2] at found ⊢
      obtain rfl := Option.some.inj (holds.1.symm.trans found)
      simp only [waits.1]
      refine ⟨⟨some (i, { holder with phase := .exporting }), ?_, holds.set (by simp)⟩, alone⟩
      dsimp only
      rw [now]
      exact .exporting rfl peer locked
  | @chowned i holder _ imported phase peer owned =>
      obtain ⟨-, same⟩ := take?_singleton.mp taken
      obtain ⟨rfl, rfl⟩ := Prod.mk.inj same
      obtain rfl := Option.some.inj (holds.1.symm.trans found)
      refine ⟨⟨some (i, { holder with phase := .reading }), ?_, holds.set (by simp)⟩, alone⟩
      dsimp only [chownTask]
      rw [now]
      exact .serving imported (Or.inl rfl) peer owned

/-- A closed socket sends the handoff message after an export and asks for DELETE after an
import, by cases on the stage.
-/
theorem Staged.realClose {s after : Flow ι} (h : Staged dep s) {i : Nat}
    (fired : Handoff.realClose s i = some after)
    : Staged dep after := by
  obtain ⟨socks, queued, answered, wire, prism, handingOff⟩ := s
  obtain ⟨⟨held, stage, holds⟩, alone⟩ := h
  obtain ⟨hcs, found, fired⟩ := Option.bind_eq_some_iff.mp fired
  dsimp only at stage found holds alone fired
  have used : hcs.phase ≠ .gone := by
    intro gone
    simp [gone] at fired
  obtain rfl := holds.unique found used
  generalize now : prism.lookup dep.key = rule at stage
  cases stage with
  | adding _ phase | locking _ phase | locked phase | chowning _ phase | chowned _ phase =>
      simp [phase] at fired
  | exporting phase peer locked =>
      simp only [phase, Option.some.injEq] at fired
      subst fired
      refine ⟨⟨none, ?_, holds.free rfl⟩, alone⟩
      dsimp only
      rw [now]
      exact .inFlight peer locked
  | fresh imported phase peer =>
      rcases phase with reading | closing
      · simp [reading] at fired
      · simp only [closing, imported, Bool.false_eq_true, ↓reduceIte, Option.some.injEq] at fired
        subst fired
        refine ⟨⟨none, ?_, holds.free rfl⟩, alone⟩
        dsimp only
        rw [now]
        exact .idle
  | serving imported phase peer owned =>
      rcases phase with reading | closing
      · simp [reading] at fired
      · simp only [closing, imported, ↓reduceIte, Option.some.injEq] at fired
        subst fired
        refine ⟨⟨none, ?_, holds.free rfl⟩, alone⟩
        dsimp only
        rw [now]
        exact .deleting peer owned

/-- The server named in a handoff message imports the connection and asks for CHOWN; any other
leaves the message where it is.
-/
theorem Staged.onHandoff [DecidableEq ι] {s after : Flow ι} (h : Staged dep s) {j : Nat}
    {res : Response ι} (fired : Handoff.onHandoff dep s j res = some after)
    : Staged dep after := by
  obtain ⟨socks, queued, answered, wire, prism, handingOff⟩ := s
  obtain ⟨⟨held, stage, holds⟩, alone⟩ := h
  obtain ⟨⟨ho, rest⟩, taken, fired⟩ := Option.bind_eq_some_iff.mp fired
  dsimp only at stage taken holds alone fired
  generalize now : prism.lookup dep.key = rule at stage
  cases stage with
  | idle | fresh | adding | locking | locked | exporting | chowning | chowned | serving
  | deleting => simp at taken
  | inFlight peer locked =>
      obtain ⟨-, same⟩ := take?_singleton.mp taken
      obtain ⟨rfl, rfl⟩ := Prod.mk.inj same
      simp only [Option.ite_none_right_eq_some] at fired
      obtain ⟨-, fired⟩ := fired
      split at fired
      case isTrue =>
        obtain rfl := Option.some.inj fired
        refine ⟨⟨_, ?_, holds.append (by simp)⟩, alone⟩
        dsimp only
        rw [now]
        exact .chowning rfl rfl peer locked
      case isFalse =>
        obtain rfl := Option.some.inj fired
        refine ⟨⟨none, ?_, holds⟩, alone⟩
        dsimp only
        rw [now]
        exact .inFlight peer locked

/-- Every event keeps the flow in some stage, by cases on the event. -/
theorem Staged.next [DecidableEq ι] {s after : Flow ι} {event : Event ι} (h : Staged dep s)
    (fired : Handoff.next dep s event = some after)
    : Staged dep after := by
  cases event with
  | accept server => exact h.accept fired
  | onRead i res => exact h.onRead fired
  | startClose i => exact h.startClose fired
  | execute j => exact h.execute fired
  | callback j => exact h.callback fired
  | realClose i => exact h.realClose fired
  | onHandoff j res => exact h.onHandoff fired

/-- The rule is the one a control request is meant to find. -/
def MeetsRule (rule : Option PrismValue) : PswReq → Prop
  | .add _ => rule = none
  | .lock _ => ∃ val, rule = some val ∧ val.locked = 0
  | .chown _ => ∃ val, rule = some val ∧ val.locked = 1
  | .delete _ | .unlock _ => ∃ val, rule = some val

/-- What a client may rely on while its flow is handed around: one holder at a time and none
while a message is on its way, a locked rule during every handoff, an unlocked rule only for
the holder, service after an import only under its own unlocked rule, and every control
request meeting the rule it is meant for.
-/
structure Safe (dep : Deployment ι) (s : Flow ι) : Prop where
  oneHolder :
    ∀ (i j : Nat) (c d : HttpClientSocket ι), s.socks[i]? = some c → s.socks[j]? = some d
      → c.phase ≠ .gone → d.phase ≠ .gone → i = j
  noneInFlight : s.wire ≠ [] → ∀ c ∈ s.socks, c.phase = .gone
  lockedHandoff : s.handingOff = true → LockedFor (s.prism.lookup dep.key)
  ownerHolds :
    ∀ val, s.prism.lookup dep.key = some val → val.locked ≠ 1 →
      ∀ c ∈ s.socks, c.phase ≠ .gone → val.owner = (dep.server c.serverSock).owner
  servesOwned :
    ∀ c ∈ s.socks, c.imported = true → c.phase = .reading
      → OwnedBy (dep.server c.serverSock).owner (s.prism.lookup dep.key)
  meets : ∀ task ∈ s.queued, MeetsRule (s.prism.lookup task.req.key) task.req

/-- The rule of a stage is absent, locked or the holder's. -/
theorem Stage.rule_cases {held : Option (Nat × HttpClientSocket ι)}
    {queued answered : List Task} {wire : List (HandoffReq ι)} {rule : Option PrismValue}
    {handingOff : Bool} (stage : Stage dep held queued answered wire rule handingOff)
    : (rule = none ∧ handingOff = false)
      ∨ LockedFor rule
      ∨ (handingOff = false
        ∧ ∃ owner,
            OwnedBy owner rule
            ∧ ∀ holder, held = some holder
              → owner = (dep.server holder.2.serverSock).owner) := by
  cases stage with
  | idle | fresh | adding => exact Or.inl ⟨rfl, rfl⟩
  | locked _ _ locked | exporting _ _ locked | inFlight _ locked | chowning _ _ _ locked =>
      exact Or.inr (Or.inl locked)
  | locking _ _ _ owned | chowned _ _ _ owned | serving _ _ _ owned =>
      refine Or.inr (Or.inr ⟨rfl, _, owned, ?_⟩)
      rintro holder same
      obtain rfl := Option.some.inj same
      rfl
  | deleting _ owned =>
      refine Or.inr (Or.inr ⟨rfl, _, owned, ?_⟩)
      intro holder same
      contradiction

/-- ADD finds no rule and LOCK an unlocked one. -/
theorem handoffTask_meets {i : Nat} {hcs : HttpClientSocket ι} {rule : Option PrismValue}
    (admits : hcs.imported = false ∧ rule = none
      ∨ hcs.imported = true ∧ OwnedBy (dep.server hcs.serverSock).owner rule)
    : MeetsRule rule (handoffTask dep i hcs).req := by
  rcases admits with ⟨imported, rfl⟩ | ⟨imported, val, rfl, unlocked, -⟩
  · simp only [handoffTask, imported, Bool.false_eq_true, ↓reduceIte, MeetsRule]
  · simp only [handoffTask, imported, ↓reduceIte]
    exact ⟨val, rfl, unlocked⟩

/-- A queued request meets the rule it is meant for, by cases on the stage. -/
theorem Stage.meets {prism : PrismTable} {held : Option (Nat × HttpClientSocket ι)}
    {queued answered : List Task} {wire : List (HandoffReq ι)} {handingOff : Bool}
    (stage : Stage dep held queued answered wire (prism.lookup dep.key) handingOff)
    : ∀ task ∈ queued, MeetsRule (prism.lookup task.req.key) task.req := by
  generalize found : prism.lookup dep.key = rule at stage
  intro task listed
  cases stage with
  | idle | fresh | locked | exporting | inFlight | chowned | serving => cases listed
  | adding imported _ peer =>
      obtain rfl := List.mem_singleton.mp listed
      rw [handoffTask_key peer, found]
      exact handoffTask_meets (Or.inl ⟨imported, rfl⟩)
  | locking imported _ peer owned =>
      obtain rfl := List.mem_singleton.mp listed
      rw [handoffTask_key peer, found]
      exact handoffTask_meets (Or.inr ⟨imported, owned⟩)
  | chowning _ _ peer locked =>
      obtain rfl := List.mem_singleton.mp listed
      rw [chownTask_key peer, found]
      exact locked
  | deleting peer owned =>
      obtain rfl := List.mem_singleton.mp listed
      obtain ⟨val, present, -⟩ := owned
      rw [deleteTask_key peer, found]
      exact ⟨val, present⟩

/-- A flow in some stage is safe: its holder, its messages and its rule are those of the stage.
-/
theorem Staged.safe {s : Flow ι} (h : Staged dep s) : Safe dep s := by
  obtain ⟨⟨held, stage, holds⟩, -⟩ := h
  have holder {i : Nat} {c : HttpClientSocket ι} (found : s.socks[i]? = some c)
      (used : c.phase ≠ .gone) : held = some (i, c) := holds.unique found used
  refine ⟨?_, ?_, ?_, ?_, ?_, stage.meets⟩
  · intro i j c d foundI foundJ usedI usedJ
    have same := (holder foundI usedI).symm.trans (holder foundJ usedJ)
    exact (Prod.mk.inj (Option.some.inj same)).1
  · intro sent
    generalize s.prism.lookup dep.key = rule, s.wire = wire, s.queued = queued,
      s.answered = answered, s.handingOff = handingOff at stage sent
    cases stage with
    | inFlight => exact holds
    | idle | fresh | adding | locking | locked | exporting | chowning | chowned | serving
    | deleting => exact absurd rfl sent
  · intro open_
    -- the rule is locked in each stage that has a handoff open
    rcases stage.rule_cases with ⟨-, closed⟩ | locked | ⟨closed, -⟩
    · rw [closed] at open_
      contradiction
    · exact locked
    · rw [closed] at open_
      contradiction
  · intro val found unlocked c listed used
    obtain ⟨i, at_⟩ := List.getElem?_of_mem listed
    -- an unlocked rule is that of the socket in use
    rcases stage.rule_cases with ⟨absent, -⟩ | ⟨val', found', one⟩ | ⟨-, owner, owned, holds_⟩
    · rw [found] at absent
      contradiction
    · obtain rfl := Option.some.inj (found.symm.trans found')
      contradiction
    · obtain ⟨val', found', -, same⟩ := owned
      obtain rfl := Option.some.inj (found.symm.trans found')
      exact same.trans (holds_ _ (holder at_ used))
  · intro c listed imported reading
    obtain ⟨i, at_⟩ := List.getElem?_of_mem listed
    obtain rfl := holder at_ (by simp [reading])
    obtain ⟨-, -, -, -, -, ⟨fresh, -⟩ | ⟨-, owned⟩⟩ := stage.of_reading reading
    · rw [imported] at fresh
      contradiction
    · exact owned

/-- The states of the flow that can be reached from no connection and no rules. -/
def Reached [DecidableEq ι] (dep : Deployment ι) (s : Flow ι) : Prop :=
  Reachable (· = .start ι) (Fires (next dep)) s

/-- Every reachable state is safe, by induction on the events over the stages. -/
theorem handoff_safe [DecidableEq ι] {s : Flow ι} (reached : Reached dep s) : Safe dep s := by
  have staged : Staged dep s := by
    refine Reachable.invariant reached ?_ ?_
    · rintro s rfl
      exact .start dep
    · exact fun s event after staged fired => staged.next fired
  exact staged.safe

/-- Two servers, and a client that the first one hands to the second. -/
def sampleDeployment : Deployment Bool where
  server
    | false => ⟨0x0100000a, 0x5000, #v[2, 0, 0, 0, 0, 1]⟩
    | true => ⟨0x0200000a, 0x5000, #v[2, 0, 0, 0, 0, 2]⟩
  client := ⟨0x0900000a, 0x901f⟩

def sampleEvents : List (Event Bool) :=
  [.accept false, .onRead 0 ⟨600, true⟩, .execute 0, .callback 0, .realClose 0,
    .onHandoff 0 ⟨200, true⟩, .execute 0, .callback 0]

/-- A connection handed to a second server and closed there is safe. -/
theorem handoff_safe_sample
    : Safe sampleDeployment
        (final (.start Bool) (runOf (next sampleDeployment) (.start Bool) sampleEvents)) :=
  handoff_safe ((runOf_path _ _ _).reachable_final (.start rfl))

example : ((final (.start Bool) (runOf (next sampleDeployment) (.start Bool)
    sampleEvents)).socks.map fun c => (c.serverSock, c.phase))
      = [(false, .gone), (true, .reading)] := by
  decide +kernel

end PrismHTTP.Handoff
