import PrismHTTP.Handoff.Ownership
import PrismHTTP.Library.Interleaving

/-! Many clients behind one switch.
The clients' flows interleave freely and share the table of rules and its 2048 entries. Each
flow runs as it would with a table to itself, except that its ADD can find the table full;
what that costs, and when it cannot happen, is settled here.
-/

namespace PrismHTTP.Handoff
open Switch LossyLink Transition Interleaving

def HttpServerSocket.endpoint (hss : HttpServerSocket) : Endpoint :=
  ⟨hss.serverAddr, hss.serverPort.toUInt16⟩

/-- The servers, and the endpoints of clients with at most one connection each. -/
structure Cluster (κ ι : Type) where
  server : ι → HttpServerSocket
  client : κ → Endpoint
  distinct : Function.Injective client
  apart : ∀ k i, client k ≠ (server i).endpoint

variable {κ ι : Type}

/-- The flow of one client. -/
def Cluster.deployment (cl : Cluster κ ι) (k : κ) : Deployment ι := ⟨cl.server, cl.client k⟩

def endpointKey (endpoint : Endpoint) : PrismKey := .ofPeer endpoint.addr endpoint.port

/-- Different endpoints have different keys. -/
theorem endpointKey_injective : Function.Injective endpointKey := by
  rintro ⟨addr, port⟩ ⟨addr', port'⟩ same
  obtain ⟨sameAddr, samePort⟩ := PrismKey.mk.inj same
  exact congrArg₂ Endpoint.mk sameAddr (UInt16.toUInt32_inj.mp samePort)

/-- The key of a client's rule. -/
def Cluster.key (cl : Cluster κ ι) (k : κ) : PrismKey := endpointKey (cl.client k)

/-- Different clients have different keys. -/
theorem Cluster.key_injective (cl : Cluster κ ι) : Function.Injective cl.key :=
  endpointKey_injective.comp cl.distinct

/-- A flow without the table of rules. -/
structure Session (ι : Type) where
  socks : List (HttpClientSocket ι)
  queued : List Task
  answered : List Task
  wire : List (HandoffReq ι)
  handingOff : Bool

def Session.start (ι : Type) : Session ι := ⟨[], [], [], [], false⟩

/-- The session's flow over the given rules. -/
def Session.flow (session : Session ι) (prism : PrismTable) : Flow ι where
  socks := session.socks
  queued := session.queued
  answered := session.answered
  wire := session.wire
  prism := prism
  handingOff := session.handingOff

def Flow.session (s : Flow ι) : Session ι := ⟨s.socks, s.queued, s.answered, s.wire, s.handingOff⟩

/-- Sessions of any clients over one table of rules. Messages of different clients are not
ordered, although they may share a connection.
-/
abbrev Clients (κ ι : Type) := State κ (Session ι) PrismTable

def Clients.start (κ ι : Type) : Clients κ ι := ⟨fun _ => .start ι, .empty⟩

/-- One step of a client's flow over the shared table. -/
def Cluster.process [DecidableEq ι] (cl : Cluster κ ι) (k : κ) (seen : Session ι × PrismTable)
    (event : Event ι)
    : Option (Session ι × PrismTable) :=
  (next (cl.deployment k) (seen.1.flow seen.2) event).map fun s => (s.session, s.prism)

def Cluster.next [DecidableEq κ] [DecidableEq ι] (cl : Cluster κ ι)
    : Clients κ ι → κ × Event ι → Option (Clients κ ι) :=
  next? cl.process

/-- The control request that an event has the switch execute. -/
def Session.request (session : Session ι) : Event ι → Option PswReq
  | .execute j => (take? session.queued j).map fun (task, _) => task.req
  | _ => none

/-- The rules after an optional request. -/
def applied (prism : PrismTable) : Option PswReq → PrismTable
  | none => prism
  | some req => (req.execute prism).1

/-- The rules a flow steps over influence neither whether it steps nor its session after. -/
theorem next_flow [DecidableEq ι] {dep : Deployment ι} {session : Session ι}
    {prism : PrismTable} {event : Event ι} {after : Flow ι}
    (fired : next dep (session.flow prism) event = some after) (other : PrismTable)
    : after.prism = applied prism (session.request event)
      ∧ next dep (session.flow other) event
        = some (after.session.flow (applied other (session.request event))) := by
  cases event with
  | accept server =>
      simp only [Handoff.next] at fired
      unfold accept at fired
      split at fired
      case isTrue idle =>
        obtain rfl := Option.some.inj fired
        exact ⟨rfl, if_pos idle⟩
      case isFalse => contradiction
  | onRead i res =>
      obtain ⟨hcs, found, fired⟩ := Option.bind_eq_some_iff.mp fired
      simp only [Option.ite_none_right_eq_some] at fired
      obtain ⟨reading, fired⟩ := fired
      simp only [Session.flow] at found
      simp only [Handoff.next, onRead, Session.flow, found, Option.bind_some, reading,
        and_self, ↓reduceIte]
      split at fired
      case isTrue handsOff =>
        obtain rfl := Option.some.inj fired
        exact ⟨rfl, by rw [if_pos handsOff]; rfl⟩
      case isFalse answers =>
        obtain rfl := Option.some.inj fired
        exact ⟨rfl, by rw [if_neg answers]; rfl⟩
  | startClose i =>
      obtain ⟨hcs, found, fired⟩ := Option.bind_eq_some_iff.mp fired
      simp only [Option.ite_none_right_eq_some, Option.some.injEq] at fired
      obtain ⟨reading, rfl⟩ := fired
      simp only [Session.flow] at found
      simp only [Handoff.next, startClose, Session.flow, found, Option.bind_some, reading,
        ↓reduceIte]
      exact ⟨rfl, rfl⟩
  -- the only step that applies the request it takes to the table, which is why the two tables
  -- may differ behind it
  | execute j =>
      obtain ⟨⟨task, rest⟩, taken, rfl⟩ := Option.map_eq_some_iff.mp fired
      simp only [Session.flow] at taken
      simp only [Handoff.next, execute, Session.flow, Session.request, taken, Option.map_some]
      exact ⟨rfl, rfl⟩
  -- no callback looks at the table: both flows take the same task off the same queue
  | callback j =>
      obtain ⟨⟨task, rest⟩, taken, fired⟩ := Option.bind_eq_some_iff.mp fired
      obtain ⟨hcs, found, rfl⟩ := Option.map_eq_some_iff.mp fired
      simp only [Session.flow] at taken found
      simp only [Handoff.next, callback, Session.flow, taken, found, Option.bind_some,
        Option.map_some]
      rcases task.userCb with _ | (_ | _)
      all_goals exact ⟨rfl, rfl⟩
  -- the close looks at the phase and at `imported` only, never at the table
  | realClose i =>
      obtain ⟨hcs, found, fired⟩ := Option.bind_eq_some_iff.mp fired
      simp only [Session.flow] at found
      simp only [Handoff.next, realClose, Session.flow, found, Option.bind_some]
      cases phase : hcs.phase with
      | reading | stopped | importing | gone => simp [phase] at fired
      | exporting =>
          simp only [phase, Option.some.injEq] at fired
          exact fired ▸ ⟨rfl, rfl⟩
      | closing =>
          simp only [phase] at fired
          split at fired
          case isTrue imported =>
            obtain rfl := Option.some.inj fired
            exact ⟨rfl, by simp only [imported, ↓reduceIte]; rfl⟩
          case isFalse imported =>
            obtain rfl := Option.some.inj fired
            exact ⟨rfl, by simp only [imported, Bool.false_eq_true, ↓reduceIte]; rfl⟩
  | onHandoff j res =>
      obtain ⟨⟨ho, rest⟩, taken, fired⟩ := Option.bind_eq_some_iff.mp fired
      simp only [Option.ite_none_right_eq_some] at fired
      obtain ⟨first, fired⟩ := fired
      simp only [Session.flow] at taken first
      simp only [Handoff.next, onHandoff, Session.flow, taken, Option.bind_some]
      rw [if_pos first]
      split at fired
      case isTrue imports =>
        obtain rfl := Option.some.inj fired
        exact ⟨rfl, by rw [if_pos imports]; rfl⟩
      case isFalse forwards =>
        obtain rfl := Option.some.inj fired
        exact ⟨rfl, by rw [if_neg forwards]; rfl⟩

/-- What a request has executed opens or ends a handoff. -/
theorem next_handingOff [DecidableEq ι] {dep : Deployment ι} {s after : Flow ι}
    {event : Event ι} {req : PswReq} (fired : next dep s event = some after)
    (executed : s.session.request event = some req)
    : after.handingOff = opensHandoff req s.handingOff := by
  cases event with
  | execute j =>
      obtain ⟨⟨task, rest⟩, taken, rfl⟩ := Option.map_eq_some_iff.mp fired
      simp only [Session.request, Flow.session, taken, Option.map_some, Option.some.injEq]
        at executed
      exact congrArg (opensHandoff · s.handingOff) executed
  | accept | onRead | startClose | callback | realClose | onHandoff => cases executed

/-- A flow is in some stage in every reachable state, by induction on the run. -/
theorem Reached.staged [DecidableEq ι] {dep : Deployment ι} {s : Flow ι}
    (reached : Reached dep s)
    : Staged dep s := by
  induction reached with
  | start same => exact same ▸ .start dep
  | next _ fired ih => exact ih.next fired

/-- A queued request is about the client's own endpoint, by cases on the stage. -/
theorem Stage.queued_key {dep : Deployment ι} {held : Option (Nat × HttpClientSocket ι)}
    {queued answered : List Task} {wire : List (HandoffReq ι)} {rule : Option PrismValue}
    {handingOff : Bool} (stage : Stage dep held queued answered wire rule handingOff)
    : ∀ task ∈ queued, task.req.key = dep.key := by
  intro task listed
  cases stage with
  | idle | fresh | locked | exporting | inFlight | chowned | serving => cases listed
  | adding _ _ peer | locking _ _ peer =>
      obtain rfl := List.mem_singleton.mp listed
      exact handoffTask_key peer
  | chowning _ _ peer =>
      obtain rfl := List.mem_singleton.mp listed
      exact chownTask_key peer
  | deleting peer =>
      obtain rfl := List.mem_singleton.mp listed
      exact deleteTask_key peer

/-- A flow has the switch execute requests about its own rule only, each meeting it. -/
theorem Staged.request {dep : Deployment ι} {s : Flow ι} (staged : Staged dep s)
    {event : Event ι} {req : PswReq} (executed : s.session.request event = some req)
    : req.key = dep.key ∧ MeetsRule (s.prism.lookup dep.key) req := by
  cases event with
  | execute j =>
      obtain ⟨⟨task, rest⟩, taken, rfl⟩ := Option.map_eq_some_iff.mp executed
      obtain ⟨held, stage, -⟩ := staged.stage
      have listed := (take?_mem taken).1
      have own := stage.queued_key task listed
      exact ⟨own, own ▸ stage.meets task listed⟩
  | accept | onRead | startClose | callback | realClose | onHandoff => cases executed

/-- What a client sees is the session of a flow of its own and, up to `Agree`, its rule. -/
def Shares (cl : Cluster κ ι) (Agree : Option PrismValue → Option PrismValue → Prop) (k : κ)
    (seen : Session ι × PrismTable) (own : Flow ι)
    : Prop :=
  own.session = seen.1 ∧ Agree (seen.2.lookup (cl.key k)) (own.prism.lookup (cl.key k))

/-- The rule is there, or has been lost. -/
def SameOrLost (rule own : Option PrismValue) : Prop := rule = own ∨ rule = none

/-- An ADD needs room in the table. -/
def RoomFor (prism : PrismTable) : PswReq → Prop
  | .add _ => ¬ prism.Full
  | .delete _ | .chown _ | .lock _ | .unlock _ => True

instance (prism : PrismTable) (req : PswReq) : Decidable (RoomFor prism req) :=
  match req with
  | .add _ => (instDecidableNot : Decidable ¬ prism.Full)
  | .delete _ | .chown _ | .lock _ | .unlock _ => .isTrue trivial

/-- The request an event has executed, if any, finds the room it needs. -/
def Room (seen : Session ι × PrismTable) (event : Event ι) : Prop :=
  ∀ req, seen.1.request event = some req → RoomFor seen.2 req

instance (seen : Session ι × PrismTable) (event : Event ι) : Decidable (Room seen event) :=
  match executed : seen.1.request event with
  | none => isTrue (by simp [Room, executed])
  | some req => decidable_of_iff (RoomFor seen.2 req) (by simp [Room, executed])

/-- A request that meets its rule is feasible if it finds room. -/
theorem MeetsRule.feasible {prism : PrismTable} {req : PswReq}
    (meets : MeetsRule (prism.lookup req.key) req) (room : RoomFor prism req)
    : req.Feasible prism := by
  cases req with
  | add add => exact ⟨meets, room⟩
  | lock req | chown req =>
      obtain ⟨val, found, -⟩ := meets
      exact Option.isSome_iff_exists.mpr ⟨val, found⟩
  | delete req | unlock req => exact Option.isSome_iff_exists.mpr meets

/-- A table that is not full has room for any request. -/
theorem roomFor_of_not_full {prism : PrismTable} (room : ¬ prism.Full) (req : PswReq)
    : RoomFor prism req := by
  cases req with
  | add => exact room
  | delete | chown | lock | unlock => trivial

/-- A feasible request makes the same of the same rule. -/
theorem execute_agree {prism own : PrismTable} {req : PswReq}
    (same : prism.lookup req.key = own.lookup req.key) (feasible : req.Feasible prism)
    (feasible' : req.Feasible own)
    : (req.execute prism).1.lookup req.key = (req.execute own).1.lookup req.key := by
  obtain ⟨-, stored, acts, lookups⟩ := feasible.execute
  obtain ⟨-, stored', acts', lookups'⟩ := feasible'.execute
  rw [same] at acts
  rw [lookups, lookups', if_pos rfl, if_pos rfl]
  exact Except.ok.inj (acts.symm.trans acts')

/-- A request that its own flow's rule admits may lose the rule, and does nothing once it is
lost.
-/
theorem execute_sameOrLost {prism own : PrismTable} {req : PswReq}
    (rule : SameOrLost (prism.lookup req.key) (own.lookup req.key))
    (meets : MeetsRule (own.lookup req.key) req) (room : ¬ own.Full)
    : SameOrLost ((req.execute prism).1.lookup req.key)
        ((req.execute own).1.lookup req.key) := by
  by_cases feasible : req.Feasible prism
  · -- only ADD is feasible without a rule, and then its own flow has none either
    have same : prism.lookup req.key = own.lookup req.key := by
      rcases rule with same | lost
      · exact same
      · cases req with
        | add req => exact lost.trans meets.symm
        | delete req | chown req | lock req | unlock req =>
            simp [PswReq.Feasible, lost] at feasible
    exact Or.inl (execute_agree same feasible (meets.feasible (roomFor_of_not_full room req)))
  · refine Or.inr ?_
    rw [PswReq.execute_refused feasible]
    rcases rule with same | lost
    · cases req with
      | add req => exact same.trans meets
      | delete req | chown req | lock req | unlock req =>
          refine absurd (MeetsRule.feasible ?_ ?_) feasible
          · exact same ▸ meets
          · trivial
    · exact lost

section Steps

variable {cl : Cluster κ ι}

/-- A client's step, as one of its own flow with its own rules. -/
theorem process_spec [DecidableEq ι] {k : κ} {seen after : Session ι × PrismTable}
    {event : Event ι} (fired : cl.process k seen event = some after) {own : Flow ι}
    (same : own.session = seen.1)
    : after.2 = applied seen.2 (seen.1.request event)
      ∧ next (cl.deployment k) own event
        = some (after.1.flow (applied own.prism (seen.1.request event))) := by
  obtain ⟨s, once, rfl⟩ := Option.map_eq_some_iff.mp fired
  have stepped := next_flow once own.prism
  rw [← same] at stepped ⊢
  exact stepped

/-- A request leaves the rules of other clients alone. -/
theorem applied_other {j k : κ} (different : k ≠ j) {session : Session ι} {event : Event ι}
    {own : Flow ι} (staged : Staged (cl.deployment j) own) (same : own.session = session)
    (store : PrismTable)
    : (applied store (session.request event)).lookup (cl.key k) = store.lookup (cl.key k) := by
  cases executed : session.request event with
  | none => rfl
  | some req =>
      obtain ⟨key, -⟩ := staged.request (same ▸ executed)
      refine PswReq.execute_lookup_ne ?_
      rw [key]
      exact fun clash => different (cl.key_injective clash)

/-- Whatever agreement every request keeps between two tables at its key, each client keeps
between the shared table and that of a flow of its own.
-/
theorem mirrored [DecidableEq ι] (cl : Cluster κ ι)
    {Agree : Option PrismValue → Option PrismValue → Prop} {guard : PrismTable → PswReq → Prop}
    (execute : ∀ {prism own : PrismTable} {req : PswReq},
      Agree (prism.lookup req.key) (own.lookup req.key)
      → MeetsRule (own.lookup req.key) req
      → ¬ own.Full
      → guard prism req
      → Agree ((req.execute prism).1.lookup req.key) ((req.execute own).1.lookup req.key))
    : Mirrored cl.process
        (fun _ seen event => ∀ req, seen.1.request event = some req → guard seen.2 req)
        (fun _ => (· = .start ι)) (fun k => Handoff.next (cl.deployment k))
        (Shares cl Agree) where
  step {k seen after event own} reached related met fired := by
    obtain ⟨same, rule⟩ := related
    obtain ⟨table, stepped⟩ := process_spec fired same
    refine ⟨_, stepped, rfl, ?_⟩
    rw [table]
    cases executed : seen.1.request event with
    | none => exact rule
    | some req =>
        have staged := Reached.staged reached
        -- the invariant of the single flow says what the rule under the client's key may be
        obtain ⟨key, meets⟩ := staged.request (same ▸ executed)
        replace key : req.key = cl.key k := key
        change Agree ((req.execute _).1.lookup _) ((req.execute _).1.lookup _)
        rw [← key] at rule ⊢
        exact execute rule (key ▸ meets) (not_full_of_alone staged.alone) (met req executed)
  others different related viewed met fired := by
    obtain ⟨other, reached, same, -⟩ := viewed
    obtain ⟨table, -⟩ := process_spec fired same
    refine ⟨related.1, ?_⟩
    dsimp only at table
    rw [table, applied_other different (Reached.staged reached) same]
    exact related.2

/-- Every client shares its session, and up to `Agree` its rule, with a flow of its own. -/
def InView [DecidableEq ι] (cl : Cluster κ ι)
    (Agree : Option PrismValue → Option PrismValue → Prop) (s : Clients κ ι)
    : Prop :=
  ∀ k,
    Viewed (fun _ => (· = .start ι)) (fun k => Handoff.next (cl.deployment k))
      (Shares cl Agree) k (s.seen k)

/-- Before the first connection every client sees a flow of its own. -/
theorem inView_start [DecidableEq ι] {Agree : Option PrismValue → Option PrismValue → Prop}
    (none_none : Agree none none)
    : InView cl Agree (.start κ ι) := by
  intro k
  refine ⟨.start ι, .start rfl, rfl, ?_⟩
  simpa [State.seen, Clients.start, Flow.start] using none_none

end Steps

/-- Every client's flow is safe, under the shared rules. -/
def AllSafe (cl : Cluster κ ι) (s : Clients κ ι) : Prop :=
  ∀ k, Safe (cl.deployment k) ((s.own k).flow s.store)

/-- A flow is as safe over any table that has its rule. -/
theorem Safe.transfer {dep : Deployment ι} {own : Flow ι} (safe : Safe dep own)
    (keys : ∀ task ∈ own.queued, task.req.key = dep.key) {prism : PrismTable}
    (same : prism.lookup dep.key = own.prism.lookup dep.key)
    : Safe dep (own.session.flow prism) where
  oneHolder := safe.oneHolder
  noneInFlight := safe.noneInFlight
  lockedHandoff := by
    simpa only [Session.flow, Flow.session, same] using safe.lockedHandoff
  ownerHolds := by
    simpa only [Session.flow, Flow.session, same] using safe.ownerHolds
  servesOwned := by
    simpa only [Session.flow, Flow.session, same] using safe.servesOwned
  meets := by
    intro task listed
    have meets := safe.meets task listed
    rw [keys task listed] at meets ⊢
    rw [← same] at meets
    exact meets

/-- Clients that each see a reachable flow of their own are safe. -/
theorem InView.allSafe [DecidableEq ι] {cl : Cluster κ ι} {s : Clients κ ι}
    (inView : InView cl Eq s)
    : AllSafe cl s := by
  intro k
  obtain ⟨own, reached, same, rule⟩ := inView k
  have staged := Reached.staged reached
  obtain ⟨held, stage, -⟩ := staged.stage
  have safe := staged.safe.transfer stage.queued_key rule
  rw [same] at safe
  exact safe

/-- An ADD that finds the table full leaves its flow handing off without a rule. -/
theorem unsafe_of_full [DecidableEq κ] [DecidableEq ι] {cl : Cluster κ ι}
    {s after : Clients κ ι} {label : κ × Event ι} (inView : InView cl Eq s)
    (cramped : ¬ Room (s.seen label.1) label.2) (fired : cl.next s label = some after)
    : ¬ AllSafe cl after := by
  obtain ⟨⟨session, store⟩, stepped, rfl⟩ := Option.map_eq_some_iff.mp fired
  obtain ⟨own, reached, same, rule⟩ := inView label.1
  obtain ⟨table, once⟩ := process_spec stepped same
  have staged := Reached.staged reached
  simp only [Room, not_forall] at cramped
  obtain ⟨req, executed, cramped⟩ := cramped
  obtain ⟨key, meets⟩ := staged.request (same ▸ executed)
  cases req with
  | delete | chown | lock | unlock => exact absurd trivial cramped
  | add req =>
      have opened : session.handingOff = opensHandoff (.add req) own.handingOff :=
        next_handingOff once (same ▸ executed)
      have infeasible : ¬ (PswReq.add req).Feasible s.store := fun feasible => cramped feasible.2
      rw [executed] at table
      obtain rfl : store = s.store := by
        simpa only [applied, State.seen, PswReq.execute_refused infeasible] using table
      intro safe
      have safe := safe label.1
      simp only [Function.update_self] at safe
      obtain ⟨val, found, -⟩ := safe.lockedHandoff opened
      have absent : s.store.lookup (cl.key label.1) = none := rule.trans meets
      exact absurd (absent.symm.trans found) (by simp)

/-- A step of one client is a step of the flow it sees; the others see the same flow as before.
-/
theorem InView.next [DecidableEq κ] [DecidableEq ι] {cl : Cluster κ ι} {s after : Clients κ ι}
    {label : κ × Event ι} (inView : InView cl Eq s) (room : Room (s.seen label.1) label.2)
    (fired : cl.next s label = some after)
    : InView cl Eq after := by
  refine (mirrored cl ?_).next inView room fired
  intro prism own req rule meets notFull room
  refine execute_agree rule ?_ (meets.feasible (roomFor_of_not_full notFull req))
  exact MeetsRule.feasible (rule ▸ meets) room

/-- Through any run of any number of clients, every flow is safe in every state exactly when
no ADD is executed while the table of rules is full.
-/
theorem clients_safe_iff [DecidableEq κ] [DecidableEq ι] (cl : Cluster κ ι)
    {path : List ((κ × Event ι) × Clients κ ι)}
    (run : Path (Fires cl.next) (.start κ ι) path)
    : EveryState (AllSafe cl) (.start κ ι) path
      ↔ EveryStep (fun s label => Room (s.seen label.1) label.2) (.start κ ι) path :=
  run.everyState_iff_of_spoiled (inView_start rfl) (fun _ => InView.allSafe)
    (fun _ _ _ inView room fired => inView.next room fired)
    (fun _ _ _ inView cramped fired => unsafe_of_full inView cramped fired)

/-- Two clients of the sample servers, on neighbouring ports of one host. -/
def sampleCluster : Cluster Bool Bool where
  server := sampleDeployment.server
  client
    | false => ⟨0x0900000a, 0x901f⟩
    | true => ⟨0x0900000a, 0x911f⟩
  distinct := by decide
  apart := by decide

/-- Both clients are handed over, and the second one's connection is closed again. -/
def sampleClients : List (Bool × Event Bool) :=
  [(false, .accept false), (true, .accept true), (true, .onRead 0 ⟨600, false⟩),
    (false, .onRead 0 ⟨600, true⟩), (true, .execute 0), (true, .callback 0),
    (false, .execute 0), (true, .realClose 0), (true, .onHandoff 0 ⟨200, false⟩),
    (false, .callback 0), (true, .execute 0), (true, .callback 0), (false, .realClose 0),
    (true, .startClose 1), (true, .realClose 1), (false, .onHandoff 0 ⟨200, true⟩),
    (true, .execute 0), (false, .execute 0), (false, .callback 0)]

/-- Two clients, one handed over while the other is served, are safe in every state. -/
theorem clients_safe_sample
    : EveryState (AllSafe sampleCluster) (.start Bool Bool)
        (runOf sampleCluster.next (.start Bool Bool) sampleClients) :=
  (clients_safe_iff sampleCluster (runOf_path _ _ _)).mpr (by decide +kernel)

section Rules

variable {cl : Cluster κ ι}

/-- A socket, a control request or a message of the client's is left. -/
def Session.Active (session : Session ι) : Prop :=
  (∃ c ∈ session.socks, c.phase ≠ .gone) ∨ session.queued ≠ [] ∨ session.wire ≠ []

instance (session : Session ι) : Decidable session.Active := inferInstanceAs (Decidable (_ ∨ _))

/-- A flow with a rule has not come to an end. -/
theorem Staged.active {dep : Deployment ι} {s : Flow ι} (staged : Staged dep s)
    (present : s.prism.lookup dep.key ≠ none)
    : s.session.Active := by
  obtain ⟨⟨held, stage, holds⟩, -⟩ := staged
  have used {i : Nat} {hcs : HttpClientSocket ι} (holds : Holds s.socks (some (i, hcs)))
      : ∃ c ∈ s.socks, c.phase ≠ .gone :=
    ⟨hcs, List.mem_of_getElem? holds.1, holds.2.1⟩
  unfold Session.Active Flow.session
  generalize s.prism.lookup dep.key = rule, s.wire = wire, s.queued = queued,
    s.answered = answered, s.handingOff = handingOff at stage present
  cases stage with
  | idle | fresh | adding => exact absurd rfl present
  | inFlight => exact Or.inr (Or.inr (by simp))
  | deleting => exact Or.inr (Or.inl (by simp))
  | locking | locked | exporting | chowning | chowned | serving => exact Or.inl (used holds)

/-- Every rule is a client's, whatever ADD has found full. -/
structure Accounted [DecidableEq ι] (cl : Cluster κ ι) (s : Clients κ ι) : Prop where
  inView : InView cl SameOrLost s
  keys : ∀ key, s.store.lookup key ≠ none → ∃ k, key = cl.key k

/-- Before the first connection there is no rule to account for. -/
theorem Accounted.start [DecidableEq ι] (cl : Cluster κ ι) : Accounted cl (.start κ ι) where
  inView := inView_start (Or.inl rfl)
  keys := by simp [Clients.start]

/-- A step of one client accounts for its own rule, and leaves those of the others. -/
theorem Accounted.next [DecidableEq κ] [DecidableEq ι] {s after : Clients κ ι}
    {label : κ × Event ι} (accounted : Accounted cl s) (fired : cl.next s label = some after)
    : Accounted cl after where
  inView :=
    have followed := @mirrored _ _ _ cl SameOrLost (fun _ _ => True)
      fun rule meets notFull _ => execute_sameOrLost rule meets notFull
    followed.next accounted.inView (fun _ _ => trivial) fired
  keys := by
    obtain ⟨⟨session, store⟩, stepped, rfl⟩ := Option.map_eq_some_iff.mp fired
    obtain ⟨own, reached, same, -⟩ := accounted.inView label.1
    obtain ⟨table, -⟩ := process_spec stepped same
    intro key present
    dsimp only at table present
    rw [table] at present
    cases executed : (s.seen label.1).1.request label.2 with
    | none =>
        rw [executed] at present
        exact accounted.keys key present
    | some req =>
        rw [executed] at present
        by_cases its : key = req.key
        · obtain ⟨known, -⟩ := (Reached.staged reached).request (same ▸ executed)
          exact ⟨label.1, its.trans known⟩
        · exact accounted.keys key (PswReq.execute_lookup_ne its ▸ present)

/-- Every rule is that of an active client. -/
theorem Accounted.active [DecidableEq ι] {s : Clients κ ι} (accounted : Accounted cl s)
    {key : PrismKey} (present : s.store.lookup key ≠ none)
    : ∃ k, key = cl.key k ∧ (s.own k).Active := by
  obtain ⟨k, rfl⟩ := accounted.keys key present
  refine ⟨k, rfl, ?_⟩
  obtain ⟨own, reached, same, rule | lost⟩ := accounted.inView k
  · have active := (Reached.staged reached).active (rule ▸ present)
    rw [same] at active
    exact active
  · exact absurd lost present

/-- Every rule in the table is that of an active client. -/
theorem Accounted.keys_subset [DecidableEq ι] {s : Clients κ ι} (accounted : Accounted cl s)
    {active : Finset κ} (all : ∀ k, (s.own k).Active → k ∈ active)
    : s.store.entries.keys ⊆ active.image cl.key := by
  intro key listed
  have present : s.store.lookup key ≠ none :=
    Option.ne_none_iff_isSome.mpr (Finmap.lookup_isSome.mpr (Finmap.mem_keys.mp listed))
  obtain ⟨k, rfl, used⟩ := accounted.active present
  exact Finset.mem_image_of_mem _ (all k used)

/-- A client whose request is executed is active. -/
theorem Session.active_of_request {session : Session ι} {event : Event ι} {req : PswReq}
    (executed : session.request event = some req)
    : session.Active := by
  cases event with
  | execute j =>
      obtain ⟨⟨task, rest⟩, taken, -⟩ := Option.map_eq_some_iff.mp executed
      exact Or.inr (Or.inl (List.ne_nil_of_mem (take?_mem taken).1))
  | accept | onRead | startClose | callback | realClose | onHandoff => cases executed

/-- The active clients are few enough for the table of rules. -/
def Few (s : Clients κ ι) : Prop :=
  ∃ active : Finset κ, active.card ≤ 2048 ∧ ∀ k, (s.own k).Active → k ∈ active

/-- A client that adds its rule is active without one, so it has left room for it. -/
theorem Accounted.room [DecidableEq ι] {s : Clients κ ι} (accounted : Accounted cl s)
    (few : Few s) (label : κ × Event ι)
    : Room (s.seen label.1) label.2 := by
  intro req executed
  cases req with
  | delete | chown | lock | unlock => trivial
  | add req =>
      obtain ⟨active, bound, all⟩ := few
      obtain ⟨own, reached, same, rule⟩ := accounted.inView label.1
      obtain ⟨-, absent⟩ := (Reached.staged reached).request (same ▸ executed)
      have lost : s.store.lookup (cl.key label.1) = none := by
        rcases rule with same | lost
        · exact same.trans absent
        · exact lost
      have listed := all label.1 (Session.active_of_request executed)
      have fewer : s.store.entries.keys ⊆ (active.image cl.key).erase (cl.key label.1) := by
        refine Finset.subset_erase.mpr ⟨accounted.keys_subset all, ?_⟩
        intro present
        have found := Finmap.lookup_isSome.mpr (Finmap.mem_keys.mp present)
        rw [BoundedMap.lookup] at lost
        rw [lost] at found
        contradiction
      have count := Finset.card_le_card fewer
      rw [Finset.card_erase_of_mem (Finset.mem_image_of_mem _ listed)] at count
      have image := @Finset.card_image_le _ _ active cl.key _
      have some_ := Finset.card_pos.mpr ⟨_, listed⟩
      change ¬ 2048 ≤ s.store.entries.keys.card
      omega

end Rules

/-- In every state that any run reaches, also after an ADD that found the table full, each
rule belongs to a client with a socket, a control request or a message left, and there are
no more rules than such clients.
-/
theorem rules_released [DecidableEq κ] [DecidableEq ι] (cl : Cluster κ ι) {s : Clients κ ι}
    (reached : Reachable (· = .start κ ι) (Fires cl.next) s)
    : (∀ key val, s.store.lookup key = some val → ∃ k, key = cl.key k ∧ (s.own k).Active)
      ∧ ∀ active : Finset κ,
          (∀ k, (s.own k).Active → k ∈ active)
          → s.store.entries.keys.card ≤ active.card := by
  -- in every state reached each rule is the one of an active client, whatever the table
  -- refused
  have accounted : Accounted cl s := by
    induction reached with
    | start same => exact same ▸ .start cl
    | next _ fired ih => exact ih.next fired
  refine ⟨?_, ?_⟩
  · intro key val found
    exact accounted.active (by simp [found])
  · intro active all
    exact (Finset.card_le_card (accounted.keys_subset all)).trans Finset.card_image_le

/-- With one of two clients active, there is at most one rule. -/
theorem rules_released_sample
    : (final (.start Bool Bool)
        (runOf sampleCluster.next (.start Bool Bool) sampleClients)).store.entries.keys.card
      ≤ ({false} : Finset Bool).card := by
  refine (rules_released sampleCluster ((runOf_path _ _ _).reachable_final (.start rfl))).2 _ ?_
  decide +kernel

/-- As long as at most 2048 clients are active at a time, every flow is safe. -/
theorem few_clients_safe [DecidableEq κ] [DecidableEq ι] (cl : Cluster κ ι)
    {path : List ((κ × Event ι) × Clients κ ι)}
    (run : Path (Fires cl.next) (.start κ ι) path) (few : EveryState Few (.start κ ι) path)
    : EveryState (AllSafe cl) (.start κ ι) path := by
  have kept : EveryState (fun s => InView cl Eq s ∧ Accounted cl s) (.start κ ι) path := by
    refine run.everyState ⟨inView_start rfl, .start cl⟩ ?_ few.everyStep
    rintro s label after ⟨inView, accounted⟩ few fired
    exact ⟨inView.next (accounted.room few label) fired, accounted.next fired⟩
  exact kept.mono fun _ kept => kept.1.allSafe

/-- Two clients are few. -/
theorem few_clients_safe_sample
    : EveryState (AllSafe sampleCluster) (.start Bool Bool)
        (runOf sampleCluster.next (.start Bool Bool) sampleClients) := by
  have few (s : Clients Bool Bool) : Few s := ⟨{false, true}, by decide, by simp⟩
  refine few_clients_safe sampleCluster (runOf_path _ _ _) ?_
  generalize Clients.start Bool Bool = start
  induction runOf sampleCluster.next start sampleClients generalizing start with
  | nil => exact few start
  | cons _ _ ih => exact ⟨few _, ih _⟩

end PrismHTTP.Handoff
