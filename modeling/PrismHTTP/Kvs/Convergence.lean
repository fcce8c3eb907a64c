import PrismHTTP.Kvs.Handlers
import PrismHTTP.Library.FifoChannels
import PrismHTTP.Library.Transition

/-! PUTs on their way through the workers of a chain of replicas.
Worker `i` of a backend hands its PUTs to worker `i` of the next one, in order; the workers of
a backend share its store. Two workers may take two PUTs of one path in another order at the
next backend, so replicas agree on a path when the workers' last PUTs of it agree, or when no
two workers have PUTs of it under way together.
-/

namespace PrismHTTP.Kvs
open PrismHTTP.Server Transition FifoChannels

/-- A PUT with a body. -/
abbrev PutRequest := { req : KvsRequest // req.Stores }

/-- A worker, by its backend's place in the chain and its id there. -/
@[ext] structure WorkerId where
  backend : Nat
  id : Nat
  deriving DecidableEq

/-- The numbers of backends and of workers of each. -/
structure Cluster where
  length : Nat
  nworkers : Nat

abbrev Store := Bytes → Option Bytes

/-- A database call's effect on the store. -/
def Store.apply (store : Store) : DbCall → Store
  | .get _ => store
  | .put path body => fun key => if key = path then some body else store key
  | .delete path => fun key => if key = path then none else store key

/-- A database whose calls succeed. -/
def Store.db (store : Store) : LevelDb where
  get := fun path => ((store path).map GetAnswer.found).getD .notFound
  put := fun _ _ => true
  delete := fun _ => true

/-- The stores and the PUTs under way, by the worker they are under way to. `handed` and
`stored` say which PUTs each worker of the head was handed and each worker has stored so far,
and influence no step.
-/
structure Replicas where
  stores : Nat → Store
  wire : List (WorkerId × PutRequest)
  handed : Nat → List PutRequest
  stored : WorkerId → List PutRequest

def Replicas.start (content : Store) : Replicas where
  stores := fun _ => content
  wire := []
  handed := fun _ => []
  stored := fun _ => []

inductive ReplicaEvent where
  /-- A frontend's PUT reaches that worker of the head. -/
  | hand (id : Nat) (put : PutRequest)
  /-- `phttp_on_handoff` of the oldest PUT under way to the worker. What it forwards is on the
  worker's own connection, so no other worker can come between the handler and the sending.
  -/
  | work (worker : WorkerId) (pool : Pool) (res : HttpResponse) (grown : Block)

namespace Replicas

def hand (s : Replicas) (id : Nat) (put : PutRequest) : Replicas where
  stores := s.stores
  wire := s.wire ++ [(⟨0, id⟩, put)]
  handed := fun i => if i = id then s.handed i ++ [put] else s.handed i
  stored := s.stored

/-- The worker's handler stores the PUT, and `worker_main` gave it the connection to go on by.
-/
def work (c : Cluster) (s : Replicas) (worker : WorkerId) (pool : Pool) (res : HttpResponse)
    (grown : Block) : Option Replicas := do
  let put ← oldest? s.wire worker
  let nextServer := decide (worker.backend + 1 < c.length)
  let handled ← Repl.kvsBackendRequestHandler nextServer pool (s.stores worker.backend).db
    grown put.1 res true
  let forwarded :=
    if handled.res.status = 600 then [(⟨worker.backend + 1, worker.id⟩, put)] else []
  return {
    stores := fun k =>
      if k = worker.backend then handled.calls.foldl Store.apply (s.stores k) else s.stores k
    wire := pop s.wire worker ++ forwarded
    handed := s.handed
    stored := fun w => if w = worker then s.stored w ++ [put] else s.stored w
  }

def next? (c : Cluster) (s : Replicas) : ReplicaEvent → Option Replicas
  | .hand id put =>
      if id < c.nworkers then some (s.hand id put) else none
  | .work worker pool res grown =>
      if worker.backend < c.length ∧ worker.id < c.nworkers then
        s.work c worker pool res grown
      else
        none

end Replicas

/-- The body of the last PUT of a path. -/
def lastBody (path : Bytes) (puts : List PutRequest) : Option Bytes :=
  ((puts.filter fun put => put.1.path = path).getLast?).map fun put => put.1.body

/-- The last body of a path is that of the latest PUT of it. -/
theorem lastBody_append (path : Bytes) (puts : List PutRequest) (put : PutRequest)
    : lastBody path (puts ++ [put])
      = if put.1.path = path then some put.1.body else lastBody path puts := by
  unfold lastBody
  by_cases own : put.1.path = path <;> simp [own]

namespace Replicas

/-- The state after a worker has handled a PUT. -/
def handle (c : Cluster) (s : Replicas) (worker : WorkerId) (put : PutRequest) : Replicas where
  stores := fun k =>
    if k = worker.backend then (s.stores k).apply put.1.putCall else s.stores k
  wire := pop s.wire worker
    ++ if worker.backend + 1 < c.length then [(⟨worker.backend + 1, worker.id⟩, put)] else []
  handed := s.handed
  stored := fun w => if w = worker then s.stored w ++ [put] else s.stored w

/-- The handler stores the oldest PUT and forwards it exactly when there is a next server. -/
theorem work_eq (c : Cluster) (s : Replicas) (worker : WorkerId) (pool : Pool)
    (res : HttpResponse) (grown : Block)
    : s.work c worker pool res grown = (oldest? s.wire worker).map (s.handle c worker) := by
  unfold work
  cases oldest? s.wire worker with
  | none => rfl
  | some put =>
      have handled := @backendHandler_put (decide (worker.backend + 1 < c.length)) pool
        (s.stores worker.backend).db grown put.1 res put.2.put put.2.some_body
      simp only [Repl.kvsBackendRequestHandler, handled, Option.bind_eq_bind, Option.bind_some,
        Option.map_some]
      by_cases next : worker.backend + 1 < c.length
      · simp [handle, next, Store.db, answer, handoffTo, KvsRequest.putCall, Store.apply]
      · simp [handle, next, Store.db, answer, KvsRequest.putCall]

/-- Every worker has stored what its predecessor has, up to what is under way between them,
and a store has at each path the last PUT of one of its workers.
-/
structure Inv (c : Cluster) (content : Store) (s : Replicas) : Prop where
  idle : ∀ i, c.nworkers ≤ i → s.handed i = []
  head : ∀ i, s.handed i = s.stored ⟨0, i⟩ ++ channel s.wire ⟨0, i⟩
  link
    : ∀ k i,
        k + 1 < c.length
        → s.stored ⟨k, i⟩ = s.stored ⟨k + 1, i⟩ ++ channel s.wire ⟨k + 1, i⟩
  last
    : ∀ k path,
        (s.stores k path = content path ∧ ∀ i, lastBody path (s.stored ⟨k, i⟩) = none)
        ∨ ∃ i body,
            lastBody path (s.stored ⟨k, i⟩) = some body ∧ s.stores k path = some body

section Wire

variable {c : Cluster} {s : Replicas} {worker w : WorkerId} {put : PutRequest}

/-- A worker forwards to another one, so its own channel only loses the PUT it handled. -/
theorem channel_handle_self (oldest : oldest? s.wire worker = some put)
    : channel s.wire worker = put :: channel (s.handle c worker put).wire worker := by
  rw [handle, channel_append, channel_pop_self oldest]
  split
  · have foreign : (⟨worker.backend + 1, worker.id⟩ : WorkerId) ≠ worker := fun same => by
      have backend := congrArg WorkerId.backend same
      dsimp only at backend
      omega
    rw [channel_cons, if_neg foreign, channel_nil, List.append_nil]
  · rw [channel_nil, List.append_nil]

/-- What is under way to a worker after another one has handled a PUT. -/
theorem channel_handle_ne (other : w ≠ worker)
    : channel (s.handle c worker put).wire w
      = channel s.wire w
        ++ if worker.backend + 1 < c.length ∧ w = ⟨worker.backend + 1, worker.id⟩
          then [put]
          else [] := by
  rw [handle, channel_append, channel_pop_ne other]
  by_cases next : worker.backend + 1 < c.length
  · rw [if_pos next, channel_cons]
    by_cases own : w = ⟨worker.backend + 1, worker.id⟩
    · rw [if_pos own.symm, if_pos ⟨next, own⟩]
      rfl
    · rw [if_neg fun same => own same.symm, if_neg fun both => own both.2]
      rfl
  · rw [if_neg next, if_neg fun both => next both.1]
    rfl

/-- A handled PUT is the latest of its worker. -/
theorem stored_handle_self
    : (s.handle c worker put).stored worker = s.stored worker ++ [put] :=
  if_pos rfl

/-- A handled PUT leaves what the other workers stored. -/
theorem stored_handle_ne (other : w ≠ worker)
    : (s.handle c worker put).stored w = s.stored w :=
  if_neg other

/-- The handled PUT becomes the last one of its path that its worker has stored. -/
theorem lastBody_stored_handle (path : Bytes) (k i : Nat)
    : lastBody path ((s.handle c worker put).stored ⟨k, i⟩)
      = if ⟨k, i⟩ = worker ∧ put.1.path = path
        then some put.1.body
        else lastBody path (s.stored ⟨k, i⟩) := by
  by_cases own : ⟨k, i⟩ = worker
  · subst own
    rw [stored_handle_self, lastBody_append]
    by_cases same : put.1.path = path
    · rw [if_pos same, if_pos ⟨rfl, same⟩]
    · rw [if_neg same, if_neg fun both => same both.2]
  · rw [stored_handle_ne own, if_neg fun both => own both.1]

/-- A handled PUT changes its own path at its worker's backend only. -/
theorem store_handle (k : Nat) (path : Bytes)
    : (s.handle c worker put).stores k path
      = if k = worker.backend ∧ put.1.path = path
        then some put.1.body
        else s.stores k path := by
  by_cases own : k = worker.backend
  · subst own
    simp [handle, Store.apply, KvsRequest.putCall, eq_comm]
  · simp [handle, own]

end Wire

section Steps

variable {c : Cluster} {content : Store} {s : Replicas} (inv : Inv c content s)

include inv

/-- A new PUT is under way to the head. -/
theorem Inv.hand {id : Nat} (has : id < c.nworkers) (put : PutRequest)
    : Inv c content (s.hand id put) := by
  refine ⟨?_, ?_, ?_, inv.last⟩
  · intro i idle
    exact (if_neg (by omega)).trans (inv.idle i idle)
  · intro i
    dsimp only [Replicas.hand]
    rw [channel_send]
    by_cases own : i = id
    · subst own
      rw [if_pos rfl, if_pos rfl, inv.head, List.append_assoc]
    · have foreign : (⟨0, id⟩ : WorkerId) ≠ ⟨0, i⟩ := fun same =>
        own (WorkerId.mk.inj same).2.symm
      rw [if_neg own, if_neg foreign]
      exact inv.head i
  · intro k i more
    dsimp only [Replicas.hand]
    have foreign : (⟨0, id⟩ : WorkerId) ≠ ⟨k + 1, i⟩ := fun same => by
      cases (WorkerId.mk.inj same).1
    rw [channel_send, if_neg foreign]
    exact inv.link k i more

/-- A handled PUT moves from the worker's channel to its store's log, and to the channel of
the next worker.
-/
theorem Inv.handle {worker : WorkerId} {put : PutRequest}
    (oldest : oldest? s.wire worker = some put)
    : Inv c content (s.handle c worker put) := by
  refine ⟨inv.idle, ?head, ?link, ?last⟩
  case head =>
    intro i
    change s.handed i = _
    by_cases own : ⟨0, i⟩ = worker
    · subst own
      rw [stored_handle_self, inv.head, channel_handle_self oldest, List.append_assoc]
      rfl
    · have foreign : ¬ (worker.backend + 1 < c.length
          ∧ (⟨0, i⟩ : WorkerId) = ⟨worker.backend + 1, worker.id⟩) := fun both => by
        cases (WorkerId.mk.inj both.2).1
      rw [stored_handle_ne own, channel_handle_ne own, if_neg foreign, List.append_nil]
      exact inv.head i
  case link =>
    intro k i more
    have differ : (⟨k + 1, i⟩ : WorkerId) ≠ ⟨k, i⟩ := fun same => by
      have backend := (WorkerId.mk.inj same).1
      omega
    -- the worker that handled the PUT is the sender, the receiver, or not on this link
    by_cases sender : ⟨k, i⟩ = worker
    · subst sender
      rw [stored_handle_self, stored_handle_ne differ, channel_handle_ne differ,
        if_pos ⟨more, rfl⟩, inv.link k i more, List.append_assoc]
    · by_cases receiver : ⟨k + 1, i⟩ = worker
      · subst receiver
        rw [stored_handle_self, stored_handle_ne sender, inv.link k i more,
          channel_handle_self oldest, List.append_assoc]
        rfl
      · have foreign : ¬ (worker.backend + 1 < c.length
            ∧ (⟨k + 1, i⟩ : WorkerId) = ⟨worker.backend + 1, worker.id⟩) := by
          rintro ⟨-, same⟩
          obtain ⟨backend, id⟩ := WorkerId.mk.inj same
          exact sender (by rw [id, Nat.succ.inj backend])
        rw [stored_handle_ne sender, stored_handle_ne receiver, channel_handle_ne receiver,
          if_neg foreign, List.append_nil]
        exact inv.link k i more
  case last =>
    intro k path
    -- only its own backend's value for its own path can have changed
    by_cases here : k = worker.backend ∧ put.1.path = path
    · obtain ⟨rfl, rfl⟩ := here
      exact .inr ⟨worker.id, put.1.body, (lastBody_stored_handle _ _ _).trans (if_pos ⟨rfl, rfl⟩),
        (store_handle _ _).trans (if_pos ⟨rfl, rfl⟩)⟩
    · have bodies : ∀ i, lastBody path ((s.handle c worker put).stored ⟨k, i⟩)
          = lastBody path (s.stored ⟨k, i⟩) := fun i =>
        (lastBody_stored_handle path k i).trans (if_neg fun both =>
          here ⟨congrArg WorkerId.backend both.1, both.2⟩)
      have kept : (s.handle c worker put).stores k path = s.stores k path :=
        (store_handle k path).trans (if_neg here)
      simp only [bodies, kept]
      exact inv.last k path

/-- Every event keeps the invariant, by cases on the event. -/
theorem Inv.step {event : ReplicaEvent} {after : Replicas}
    (fires : Fires (next? c) s event after)
    : Inv c content after := by
  cases event with
  | hand id put =>
      have did : (if id < c.nworkers then some (s.hand id put) else none) = some after := fires
      split at did
      · next has =>
          obtain rfl := Option.some.inj did
          exact inv.hand has put
      · cases did
  | work worker pool res grown =>
      have did : (if worker.backend < c.length ∧ worker.id < c.nworkers
          then s.work c worker pool res grown else none) = some after := fires
      split at did
      · rw [work_eq] at did
        obtain ⟨put, oldest, rfl⟩ := Option.map_eq_some_iff.mp did
        exact inv.handle oldest
      · cases did

/-- With nothing under way every worker has stored what its namesake at the head was handed,
by induction on its place in the chain.
-/
theorem Inv.stored_eq_handed (quiet : s.wire = []) (i : Nat)
    : ∀ k < c.length, s.stored ⟨k, i⟩ = s.handed i := by
  -- along the chain: each server's writes are those of the one before it and those on the wire
  intro k
  induction k with
  | zero =>
      intro _
      rw [inv.head, quiet, channel_nil, List.append_nil]
  | succ k ih =>
      intro more
      have before := ih (by omega)
      rw [inv.link k i more, quiet, channel_nil, List.append_nil] at before
      exact before

end Steps

/-- The invariant holds in every reachable state, by induction on the run. -/
theorem Inv.of_reachable {c : Cluster} {content : Store} {s : Replicas}
    (reached : Reachable (· = start content) (Fires (next? c)) s)
    : Inv c content s := by
  refine reached.invariant ?_ fun _ _ _ inv fires => Inv.step inv fires
  rintro _ rfl
  exact ⟨fun _ _ => rfl, fun _ => rfl, fun _ _ _ => rfl, fun _ _ => .inl ⟨rfl, fun _ => rfl⟩⟩

section Apart

/-- All PUTs of the path that are under way are on the connections of workers with that id. -/
def Apart (s : Replicas) (path : Bytes) (id : Nat) : Prop :=
  ∀ item ∈ s.wire, item.2.1.path = path → item.1.id = id

/-- No worker is handed a PUT of the path while workers of another id have one of it under way.
-/
def HandsApart (path : Bytes) (s : Replicas) : ReplicaEvent → Prop
  | .hand id put => put.1.path = path → s.Apart path id
  | .work .. => True

instance (path : Bytes) (s : Replicas) (id : Nat) : Decidable (s.Apart path id) :=
  inferInstanceAs (Decidable (∀ item ∈ s.wire, item.2.1.path = path → item.1.id = id))

instance (path : Bytes) (s : Replicas) (event : ReplicaEvent)
    : Decidable (HandsApart path s event) :=
  match event with
  | .hand id put => inferInstanceAs (Decidable (put.1.path = path → s.Apart path id))
  | .work .. => isTrue trivial

def ApartStep (c : Cluster) (path : Bytes) (s : Replicas) (event : ReplicaEvent)
    (after : Replicas)
    : Prop :=
  Fires (next? c) s event after ∧ HandsApart path s event

/-- A PUT of the path on its way to a backend. -/
def toBackend (path : Bytes) (backend : Nat) (item : WorkerId × PutRequest) : Bool :=
  item.1.backend = backend ∧ item.2.1.path = path

/-- The body of the last PUT of the path on its way to a backend. -/
def lastUnderWay (s : Replicas) (path : Bytes) (backend : Nat) : Option Bytes :=
  ((s.wire.filter (toBackend path backend)).getLast?).map fun item => item.2.1.body

/-- PUTs of the path are under way with one id, and a backend has the value that the next one
will have when all that is under way to it has come.
-/
structure OneAtATime (c : Cluster) (path : Bytes) (s : Replicas) : Prop where
  alone
    : ∀ item ∈ s.wire, ∀ other ∈ s.wire,
        item.2.1.path = path → other.2.1.path = path → item.1.id = other.1.id
  link
    : ∀ k,
        k + 1 < c.length
        → s.stores k path = (s.lastUnderWay path (k + 1)).or (s.stores (k + 1) path)

variable {c : Cluster} {path : Bytes} {s : Replicas}

/-- A PUT on its way to the head is on its way to no other backend. -/
theorem lastUnderWay_hand {id : Nat} {put : PutRequest} (k : Nat)
    : (s.hand id put).lastUnderWay path (k + 1) = s.lastUnderWay path (k + 1) := by
  simp [lastUnderWay, hand, toBackend]

/-- Handing a PUT to the head keeps the invariant, if it joins no other worker's PUT. -/
theorem OneAtATime.hand (one : OneAtATime c path s) {id : Nat} {put : PutRequest}
    (apart : put.1.path = path → s.Apart path id)
    : OneAtATime c path (s.hand id put) := by
  refine ⟨?_, fun k more => ?_⟩
  · intro item member other member' own own'
    rcases List.mem_append.mp member with old | new <;>
      rcases List.mem_append.mp member' with old' | new'
    · exact one.alone item old other old' own own'
    · obtain rfl := List.mem_singleton.mp new'
      exact apart own' item old own
    · obtain rfl := List.mem_singleton.mp new
      exact (apart own other old' own').symm
    · rw [List.mem_singleton.mp new, List.mem_singleton.mp new']
  · rw [lastUnderWay_hand]
    exact one.link k more

section Handle

variable {worker : WorkerId} {put : PutRequest}

/-- What is under way after a PUT was handled: the PUT itself is, to the next worker. -/
theorem lastUnderWay_handle_next (own : put.1.path = path) (more : worker.backend + 1 < c.length)
    : (s.handle c worker put).lastUnderWay path (worker.backend + 1) = some put.1.body := by
  have chosen : toBackend path (worker.backend + 1) (⟨worker.backend + 1, worker.id⟩, put)
      = true := by
    simp [toBackend, own]
  rw [lastUnderWay, Replicas.handle, if_pos more, List.filter_append,
    List.filter_cons_of_pos chosen]
  simp

variable (oldest : oldest? s.wire worker = some put)

include oldest

/-- To other backends the same is under way; and so it is to every one when the PUT is of
another path.
-/
theorem lastUnderWay_handle_other {k : Nat} (differ : put.1.path = path → k ≠ worker.backend)
    (beyond : put.1.path = path → k ≠ worker.backend + 1)
    : (s.handle c worker put).lastUnderWay path k = s.lastUnderWay path k := by
  have kept : ¬ toBackend path k (worker, put) = true := by
    simp only [toBackend, decide_eq_true_eq]
    rintro ⟨here, own⟩
    exact differ own here.symm
  have sent : ¬ toBackend path k (⟨worker.backend + 1, worker.id⟩, put) = true := by
    simp only [toBackend, decide_eq_true_eq]
    rintro ⟨here, own⟩
    exact beyond own here.symm
  rw [lastUnderWay, lastUnderWay, Replicas.handle, List.filter_append,
    filter_pop_of_not oldest kept]
  split
  · rw [List.filter_cons_of_neg sent, List.filter_nil, List.append_nil]
  · rw [List.filter_nil, List.append_nil]

/-- Of the PUTs of a path under way to a backend, the first one is the one handled, as all are
on the connections of one id; so the last one stays the last, if there is another.
-/
theorem OneAtATime.lastUnderWay_handle_self (one : OneAtATime c path s)
    (own : put.1.path = path)
    : s.lastUnderWay path worker.backend
      = ((s.handle c worker put).lastUnderWay path worker.backend).or (some put.1.body) := by
  have there : ∀ item ∈ s.wire, toBackend path worker.backend item = true → item.1 = worker := by
    intro item member chosen
    obtain ⟨backend, of_path⟩ := of_decide_eq_true chosen
    have id := one.alone item member _ (mem_of_oldest? oldest) of_path own
    exact WorkerId.ext backend id
  have first := filter_pop there oldest (by simp [toBackend, own])
  have sent : ¬ toBackend path worker.backend (⟨worker.backend + 1, worker.id⟩, put) = true := by
    simp [toBackend]
  have rest : (s.handle c worker put).wire.filter (toBackend path worker.backend)
      = (pop s.wire worker).filter (toBackend path worker.backend) := by
    rw [Replicas.handle, List.filter_append]
    split
    · rw [List.filter_cons_of_neg sent, List.filter_nil, List.append_nil]
    · rw [List.filter_nil, List.append_nil]
  rw [lastUnderWay, lastUnderWay, first, rest, List.getLast?_cons]
  cases ((pop s.wire worker).filter (toBackend path worker.backend)).getLast? <;> rfl

/-- Handling the oldest PUT of a worker keeps the invariant: its own store gets the body that it
passes on, and the store before it agrees as before.
-/
theorem OneAtATime.handle (one : OneAtATime c path s)
    : OneAtATime c path (s.handle c worker put) := by
  refine ⟨?alone, fun k more => ?link⟩
  case alone =>
    -- what is forwarded goes on with the id it came with
    have before : ∀ item ∈ (s.handle c worker put).wire,
        ∃ old ∈ s.wire, old.1.id = item.1.id ∧ old.2 = item.2 := by
      intro item member
      rcases List.mem_append.mp member with old | new
      · exact ⟨item, mem_of_mem_pop old, rfl, rfl⟩
      · split at new
        · obtain rfl := List.mem_singleton.mp new
          exact ⟨_, mem_of_oldest? oldest, rfl, rfl⟩
        · cases new
    intro item member other member' own own'
    obtain ⟨old, was, id, same⟩ := before item member
    obtain ⟨old', was', id', same'⟩ := before other member'
    rw [← id, ← id']
    exact one.alone old was old' was' (same ▸ own) (same' ▸ own')
  case link =>
    rw [store_handle, store_handle]
    by_cases own : put.1.path = path
    · by_cases here : k = worker.backend
      · -- the store handled is the first of the link
        subst here
        rw [if_pos ⟨rfl, own⟩, lastUnderWay_handle_next own more]
        rfl
      · rw [if_neg fun both => here both.1]
        by_cases next : k + 1 = worker.backend
        · -- the store handled is the second of the link
          rw [if_pos ⟨next, own⟩, next, ← one.lastUnderWay_handle_self oldest own, one.link k more,
            next]
          -- what was under way to it decided the first store already
          have some_ : ∃ body, s.lastUnderWay path worker.backend = some body := by
            rw [one.lastUnderWay_handle_self oldest own]
            cases (s.handle c worker put).lastUnderWay path worker.backend <;> exact ⟨_, rfl⟩
          obtain ⟨body, under⟩ := some_
          rw [under]
          rfl
        · rw [if_neg fun both => next both.1,
            lastUnderWay_handle_other oldest (fun _ => next) fun _ same => here (Nat.succ.inj same)]
          exact one.link k more
    · rw [if_neg fun both => own both.2, if_neg fun both => own both.2,
        lastUnderWay_handle_other oldest (fun same => absurd same own)
          fun same => absurd same own]
      exact one.link k more

end Handle

/-- Every step of the restricted run keeps the invariant, by cases on the event. -/
theorem OneAtATime.step {event : ReplicaEvent} {after : Replicas} (one : OneAtATime c path s)
    (steps : ApartStep c path s event after)
    : OneAtATime c path after := by
  obtain ⟨fires, apart⟩ := steps
  cases event with
  | hand id put =>
      have did : (if id < c.nworkers then some (s.hand id put) else none) = some after := fires
      split at did
      · obtain rfl := Option.some.inj did
        exact one.hand apart
      · cases did
  | work worker pool res grown =>
      have did : (if worker.backend < c.length ∧ worker.id < c.nworkers
          then s.work c worker pool res grown else none) = some after := fires
      split at did
      · rw [work_eq] at did
        obtain ⟨put, oldest, rfl⟩ := Option.map_eq_some_iff.mp did
        exact one.handle oldest
      · cases did

/-- Once nothing is under way, all backends agree with the head, by induction on the chain. -/
theorem OneAtATime.agree {content : Store}
    (reached : Reachable (· = start content) (ApartStep c path) s) (quiet : s.wire = [])
    : ∀ k < c.length, s.stores k path = s.stores 0 path := by
  have one : OneAtATime c path s := by
    refine reached.invariant ?_ fun _ _ _ one steps => one.step steps
    rintro _ rfl
    exact ⟨fun _ member => (by cases member), fun _ _ => rfl⟩
  -- along the chain: every server agrees with the one before it once nothing is under way
  intro k
  induction k with
  | zero => exact fun _ => rfl
  | succ k ih =>
      intro more
      have link := one.link k more
      rw [lastUnderWay, quiet] at link
      rw [← ih (by omega), link]
      rfl

end Apart

end Replicas

/-- Once no PUT is under way, every backend has at a path the last PUT of it that some worker
of the head was handed. All have the same value when the workers' last PUTs of the path carry
the same body, and also when no worker was handed a PUT of the path while workers of another id
had one of it under way.
-/
theorem replicas_converge {c : Cluster} {content : Store} {s : Replicas}
    (reached : Reachable (· = Replicas.start content) (Fires (Replicas.next? c)) s)
    (quiet : s.wire = []) (path : Bytes)
    : (∀ k < c.length,
        (s.stores k path = content path ∧ ∀ i < c.nworkers, lastBody path (s.handed i) = none)
        ∨ ∃ i < c.nworkers, ∃ body,
            lastBody path (s.handed i) = some body ∧ s.stores k path = some body)
      ∧ ((∀ i < c.nworkers, ∀ j < c.nworkers, ∀ body other,
          lastBody path (s.handed i) = some body
          → lastBody path (s.handed j) = some other
          → body = other)
        → ∀ k < c.length, ∀ k' < c.length, s.stores k path = s.stores k' path)
      ∧ (Reachable (· = Replicas.start content) (Replicas.ApartStep c path) s
        → ∀ k < c.length, ∀ k' < c.length, s.stores k path = s.stores k' path) := by
  have inv := Replicas.Inv.of_reachable reached
  have values : ∀ k < c.length,
      (s.stores k path = content path ∧ ∀ i < c.nworkers, lastBody path (s.handed i) = none)
      ∨ ∃ i < c.nworkers, ∃ body,
          lastBody path (s.handed i) = some body ∧ s.stores k path = some body := by
    intro k has
    have stored := fun i => inv.stored_eq_handed quiet i k has
    rcases inv.last k path with ⟨kept, none⟩ | ⟨i, body, last, value⟩
    · exact .inl ⟨kept, fun i _ => stored i ▸ none i⟩
    · rw [stored] at last
      refine .inr ⟨i, ?_, body, last, value⟩
      -- a worker that was handed a PUT is one of the cluster's
      refine Nat.lt_of_not_le fun idle => ?_
      rw [inv.idle i idle] at last
      cases last
  refine ⟨values, fun agree k has k' has' => ?_, fun apart k has k' has' => ?_⟩
  swap
  · rw [Replicas.OneAtATime.agree apart quiet k has, Replicas.OneAtATime.agree apart quiet k' has']
  rcases values k has with ⟨kept, none⟩ | ⟨i, hi, body, last, value⟩
  · rcases values k' has' with ⟨kept', -⟩ | ⟨j, hj, other, last', -⟩
    · rw [kept, kept']
    · cases (none j hj).symm.trans last'
  · rcases values k' has' with ⟨-, none⟩ | ⟨j, hj, other, last', value'⟩
    · cases (none i hi).symm.trans last
    · rw [value, value', agree i hi j hj body other last last']

section Sample

def samplePutOf (body : Nat) : PutRequest :=
  have put : KvsRequest.MethodIs ⟨literal "PUT /k HTTP/1.1", literal "/k", []⟩ "PUT" := by
    decide +kernel
  ⟨⟨literal "PUT /k HTTP/1.1", literal "/k", [UInt8.ofNat body]⟩, put, List.cons_ne_nil _ _⟩

/-- Two backends of two workers. -/
def sampleCluster : Cluster := ⟨2, 2⟩

def sampleWork (backend id : Nat) : ReplicaEvent :=
  .work ⟨backend, id⟩ ⟨0, 1⟩ (httpResponseInit ⟨0, fun _ => 0⟩ ⟨0, fun _ => 0⟩) ⟨0, fun _ => 0⟩

def sampleReplicas (events : List ReplicaEvent) : Replicas :=
  Transition.final (Replicas.start fun _ => none)
    (runOf (Replicas.next? sampleCluster) (Replicas.start fun _ => none) events)

/-- The states of the examples are reached by runs of the system. -/
theorem sampleReplicas_reached (events : List ReplicaEvent)
    : Reachable (· = Replicas.start fun _ => none) (Fires (Replicas.next? sampleCluster))
        (sampleReplicas events) :=
  (runOf_path _ _ _).reachable_final (.start rfl)

/-- Two workers are handed a PUT of the path each, the second when the first has arrived
everywhere.
-/
def sampleTurns : List ReplicaEvent :=
  [.hand 0 (samplePutOf 97), sampleWork 0 0, sampleWork 1 0, .hand 1 (samplePutOf 98),
    sampleWork 0 1, sampleWork 1 1]

/-- The example whose PUTs take turns is reached by a run in which they never overlap. -/
theorem sampleTurns_reached
    : Reachable (· = Replicas.start fun _ => none)
        (Replicas.ApartStep sampleCluster (literal "/k")) (sampleReplicas sampleTurns) := by
  have apart : EveryStep (Replicas.HandsApart (literal "/k")) (Replicas.start fun _ => none)
      (runOf (Replicas.next? sampleCluster) (Replicas.start fun _ => none) sampleTurns) := by
    decide +kernel
  exact ((runOf_path _ _ _).restrict apart).reachable_final (.start rfl)

/-- One worker is handed both PUTs of the path; or two workers are, one after the other. -/
theorem replicas_converge_sample
    : (let s := sampleReplicas [.hand 1 (samplePutOf 97), .hand 1 (samplePutOf 98),
        sampleWork 0 1, sampleWork 1 1, sampleWork 0 1, sampleWork 1 1]
      s.stores 0 (literal "/k") = s.stores 1 (literal "/k")
        ∧ s.stores 0 (literal "/k") = some [98])
      ∧ let s := sampleReplicas sampleTurns
        s.stores 0 (literal "/k") = s.stores 1 (literal "/k")
          ∧ s.stores 0 (literal "/k") = some [98] := by
  refine ⟨?_, ?_⟩
  · intro s
    have quiet : s.wire = [] := by decide +kernel
    refine ⟨(replicas_converge (sampleReplicas_reached _) quiet _).2.1 ?_ 0 (by decide) 1
      (by decide), by decide +kernel⟩
    have bodies : ∀ i < 2, ∀ body ∈ lastBody (literal "/k") (s.handed i), body = [98] := by
      decide +kernel
    intro i hi j hj body other last last'
    exact (bodies i hi body last).trans (bodies j hj other last').symm
  · intro s
    have quiet : s.wire = [] := by decide +kernel
    exact ⟨(replicas_converge (sampleReplicas_reached _) quiet _).2.2 sampleTurns_reached 0
      (by decide) 1 (by decide), by decide +kernel⟩

/-- Two workers forward the PUTs they stored, and their successors store them in the other
order.
-/
theorem replicas_diverge
    : let s := sampleReplicas [.hand 0 (samplePutOf 97), .hand 1 (samplePutOf 98),
        sampleWork 0 0, sampleWork 0 1, sampleWork 1 1, sampleWork 1 0]
      Reachable (· = Replicas.start fun _ => none) (Fires (Replicas.next? sampleCluster)) s
        ∧ s.wire = []
        ∧ s.stores 0 (literal "/k") = some [98]
        ∧ s.stores 1 (literal "/k") = some [97] :=
  ⟨sampleReplicas_reached _, by decide +kernel, by decide +kernel, by decide +kernel⟩

end Sample

end PrismHTTP.Kvs
