import PrismHTTP.Kvs.Chain

/-! Acknowledged PUTs are on every replica.
A message at a place of the chain has been stored at all the places before, and a request is
at one place only, under way or answered.
-/

namespace PrismHTTP.Kvs
open PrismHTTP.Server MemoryBlock Transition

/-- The handler's call has stored the PUT. -/
def StoredBy (db : LevelDb) (req : KvsRequest) (handled : Handled) : Prop :=
  req.putCall ∈ handled.calls ∧ db.ok req.putCall = true

/-- What a server may conclude from its handler's result. -/
structure Outcome (d : Deployment) (node : Node) (db : LevelDb) (req : KvsRequest)
    (handled : Handled)
    : Prop where
  handsOver
    : handled.res.status = 600
      → ∀ dest,
          d.target node handled.res.handoffData = some dest
          → d.Has dest
            ∧ (req.Stores
              → ∀ k, dest = .backend k
                → k = 0
                  ∨ ∃ j, k = j + 1 ∧ node = .backend j ∧ StoredBy db req handled)
  acknowledges
    : handled.res.status = 200
      → req.Stores
      → ∃ k, node = .backend k ∧ d.length ≤ k + 1 ∧ StoredBy db req handled

section Handlers

variable {d : Deployment} {req : KvsRequest} {handled : Handled}

/-- An imported request leaves a backend only as a PUT that goes to the next server. -/
theorem backendHandler_handoff {nextServer : Bool} {pool : Pool} {db : LevelDb} {grown : Block}
    {res : HttpResponse}
    (did : backendHandler nextServer pool db grown req res true = some handled)
    (handoff : handled.res.status = 600)
    : req.Stores ∧ nextServer = true := by
  rw [backendHandler, if_neg (by decide)] at did
  -- only the PUT branch ever sets the hand-off status; every other one answers by itself
  by_cases get : req.MethodIs "GET"
  · rw [if_pos get] at did
    dsimp only at did
    cases got : db.get req.path with
    | notFound | failed =>
        rw [got] at did
        obtain rfl := Option.some.inj did
        cases handoff
    | found val =>
        rw [got] at did
        obtain ⟨set, -, rfl⟩ := Option.map_eq_some_iff.mp did
        cases handoff
  · by_cases put : req.MethodIs "PUT"
    · by_cases some_body : req.body = []
      · rw [if_neg get, if_pos put, if_pos (by rw [some_body]; rfl)] at did
        obtain rfl := Option.some.inj did
        cases handoff
      · refine ⟨⟨put, some_body⟩, ?_⟩
        have handled_eq := @backendHandler_put nextServer pool db grown req res put some_body
        rw [backendHandler, if_neg (by decide)] at handled_eq
        rw [did] at handled_eq
        obtain rfl := Option.some.inj handled_eq
        dsimp only at handoff
        split at handoff
        · cases handoff
        · split at handoff
          · next there => exact there
          · cases handoff
    · rw [if_neg get, if_neg put] at did
      by_cases delete : req.MethodIs "DELETE"
      · rw [if_pos delete] at did
        dsimp only at did
        split at did
        · obtain rfl := Option.some.inj did
          cases handoff
        · obtain ⟨added, -, rfl⟩ := Option.map_eq_some_iff.mp did
          cases handoff
      · rw [if_neg delete] at did
        obtain rfl := Option.some.inj did
        cases handoff

/-- What a backend's handler does, by cases on the method and on what the database answers. -/
theorem backend_outcome {k : Nat} {env : Env} {res : HttpResponse} {imported : Bool}
    (did : d.handler (.backend k) env req res imported = some handled)
    : Outcome d (.backend k) env.db req handled := by
  cases imported with
  | false =>
      obtain rfl := Option.some.inj did
      refine ⟨?_, fun other => by cases other⟩
      -- a request that was not imported goes to a proxy, whatever it asks
      intro _ dest leads
      obtain rfl := Option.some.inj leads
      exact ⟨trivial, fun _ k same => by cases same⟩
  | true =>
      refine ⟨?_, ?_⟩
      · intro handoff dest leads
        obtain ⟨stores, next⟩ := backendHandler_handoff did handoff
        have handled_eq : d.handler (.backend k) env req res true = some _ :=
          backendHandler_put stores.put stores.some_body
        rw [did] at handled_eq
        obtain rfl := Option.some.inj handled_eq
        dsimp only at handoff leads ⊢
        cases stored : env.db.put req.path req.body with
        | false =>
            rw [stored] at handoff
            cases handoff
        | true =>
            rw [stored, next] at leads
            obtain rfl := Option.some.inj leads
            refine ⟨of_decide_eq_true next, ?_⟩
            rintro - j same
            obtain rfl := Node.backend.inj same
            exact Or.inr ⟨k, rfl, rfl, List.mem_singleton.mpr rfl, stored⟩
      · intro ok stores
        have handled_eq : d.handler (.backend k) env req res true = some _ :=
          backendHandler_put stores.put stores.some_body
        rw [did] at handled_eq
        obtain rfl := Option.some.inj handled_eq
        dsimp only at ok
        cases stored : env.db.put req.path req.body with
        | false =>
            rw [stored] at ok
            cases ok
        | true =>
            refine ⟨k, rfl, ?_, List.mem_singleton.mpr rfl, stored⟩
            -- with a next server the status would be our own 600
            refine Classical.byContradiction fun short => ?_
            have next : decide (k + 1 < d.length) = true := decide_eq_true (Nat.not_le.mp short)
            rw [stored, next] at ok
            cases ok

/-- What the proxy's handler does, by cases on the method and on whether a backend is chosen.
-/
theorem proxy_outcome {env : Env} {res : HttpResponse} (fresh : res.status = 0)
    {imported : Bool} (did : d.handler .proxy env req res imported = some handled)
    : Outcome d .proxy env.db req handled := by
  obtain rfl := Option.some.inj did
  rw [Repl.kvsProxyRequestHandler]
  by_cases get : req.MethodIs "GET"
  · rw [if_pos get]
    refine ⟨?_, fun other => by cases other⟩
    intro _ dest leads
    obtain rfl := Option.some.inj leads
    exact ⟨d.listed_lt _, fun stores => absurd get stores.put.put_not_get⟩
  · rw [if_neg get]
    by_cases put : req.MethodIs "PUT"
    · rw [if_pos put]
      refine ⟨?_, fun other => by cases other⟩
      intro _ dest leads
      obtain rfl := Option.some.inj leads
      refine ⟨d.listed_lt _, ?_⟩
      rintro - k same
      obtain rfl := Node.backend.inj same
      exact Or.inl d.first
    -- nothing is set for another method, and zero is neither 600 nor 200
    · rw [if_neg put]
      refine ⟨?_, ?_⟩
      · intro handoff
        rw [fresh] at handoff
        cases handoff
      · intro ok
        rw [fresh] at ok
        cases ok

/-- What the handler of any node does, by cases on the node. -/
theorem handler_outcome {node : Node} {env : Env} {res : HttpResponse}
    (fresh : res.status = 0) {imported : Bool}
    (did : d.handler node env req res imported = some handled)
    : Outcome d node env.db req handled := by
  cases node with
  | proxy => exact proxy_outcome fresh did
  | backend k => exact backend_outcome did

end Handlers

namespace System

/-- The ids of the requests under way and of those answered. -/
def tokens (s : System) : List Nat := s.inFlight.map Message.id ++ s.responses.map Response.id

/-- What was asked by the request of that id. -/
def Asked (s : System) (id : Nat) (kvs : KvsRequest) : Prop :=
  ∃ req, s.requests[id]? = some req ∧ viewOf req = some kvs

/-- The databases of all backends before that place have stored the PUT. -/
def StoredBefore (s : System) (k : Nat) (kvs : KvsRequest) : Prop :=
  ∀ j < k, ⟨.backend j, kvs.putCall, true⟩ ∈ s.calls

/-- A request is under way or answered once, and a message or an acknowledgement at some
place of the chain leaves the request stored at the places before it.
-/
structure Inv (d : Deployment) (s : System) : Prop where
  unique : s.tokens.Nodup
  carried
    : ∀ m ∈ s.inFlight,
        ∃ req, s.requests[m.id]? = some req ∧ Settled req ∧ m.http = httpRequestExport req
  answered : ∀ rsp ∈ s.responses, rsp.id < s.requests.length
  placed : ∀ m ∈ s.inFlight, d.Has m.dest
  stored
    : ∀ m ∈ s.inFlight,
        ∀ kvs, s.Asked m.id kvs → kvs.Stores → ∀ k, m.dest = .backend k → s.StoredBefore k kvs
  acknowledged
    : ∀ rsp ∈ s.responses,
        rsp.status = 200
        → ∀ kvs, s.Asked rsp.id kvs → kvs.Stores
        → rsp.node = .backend (d.length - 1) ∧ s.StoredBefore d.length kvs

/-- With the handler's own call a PUT is stored one place further. -/
theorem StoredBefore.succ {s : System} {node : Node} {db : LevelDb} {kvs : KvsRequest}
    {handled : Handled} {k : Nat} (before : s.StoredBefore k kvs)
    (stored : StoredBy db kvs handled) (here : node = .backend k)
    : StoredBefore (s.record node db handled.calls) (k + 1) kvs := by
  intro j upTo
  rcases Nat.lt_succ_iff_lt_or_eq.mp upTo with earlier | rfl
  · exact List.mem_append_left _ (before j earlier)
  · subst here
    exact List.mem_append_right _ (List.mem_map.mpr ⟨_, stored.1, by rw [stored.2]⟩)

section Steps

variable {d : Deployment} {s : System} (inv : Inv d s)

include inv

/-- A token is that of a request received. -/
theorem Inv.known {id : Nat} (token : id ∈ s.tokens) : id < s.requests.length := by
  rcases List.mem_append.mp token with under | done
  · obtain ⟨m, member, rfl⟩ := List.mem_map.mp under
    obtain ⟨req, found, -⟩ := inv.carried m member
    exact (List.getElem?_eq_some_iff.mp found).1
  · obtain ⟨rsp, member, rfl⟩ := List.mem_map.mp done
    exact inv.answered rsp member

/-- Calls only add to what is stored. -/
theorem Inv.record (node : Node) (db : LevelDb) (calls : List DbCall)
    : Inv d (s.record node db calls) where
  unique := inv.unique
  carried := inv.carried
  answered := inv.answered
  placed := inv.placed
  stored := fun m member kvs asked stores k dest j before =>
    List.mem_append_left _ (inv.stored m member kvs asked stores k dest j before)
  acknowledged := fun rsp member ok kvs asked stores =>
    have earlier := inv.acknowledged rsp member ok kvs asked stores
    ⟨earlier.1, fun j before => List.mem_append_left _ (earlier.2 j before)⟩

/-- A new request changes nothing for those before it. -/
theorem Inv.read (req : HttpRequest) : Inv d { s with requests := s.requests ++ [req] } := by
  have asked {id : Nat} (token : id ∈ s.tokens) {kvs : KvsRequest}
      (now : Asked { s with requests := s.requests ++ [req] } id kvs) : s.Asked id kvs := by
    obtain ⟨r, found, view⟩ := now
    refine ⟨r, ?_, view⟩
    rwa [List.getElem?_append_left (inv.known token)] at found
  refine ⟨inv.unique, ?_, ?_, inv.placed, ?_, ?_⟩
  · intro m member
    obtain ⟨r, found, settled, http⟩ := inv.carried m member
    refine ⟨r, ?_, settled, http⟩
    exact (List.getElem?_append_left (List.getElem?_eq_some_iff.mp found).1).trans found
  · intro rsp member
    have before := inv.answered rsp member
    simp only [List.length_append, List.length_singleton]
    omega
  · intro m member kvs now
    exact inv.stored m member kvs
      (asked (List.mem_append_left _ (List.mem_map_of_mem member)) now)
  · intro rsp member ok kvs now
    exact inv.acknowledged rsp member ok kvs
      (asked (List.mem_append_right _ (List.mem_map_of_mem member)) now)

/-- A message taken out leaves its id to be used again. -/
theorem Inv.take {index : Nat} {m : Message} (found : s.inFlight[index]? = some m)
    : Inv d { s with inFlight := s.inFlight.eraseIdx index }
      ∧ m.id ∉ tokens { s with inFlight := s.inFlight.eraseIdx index } := by
  obtain ⟨inside, here⟩ := List.getElem?_eq_some_iff.mp found
  have split : s.inFlight = s.inFlight.take index ++ m :: s.inFlight.drop (index + 1) := by
    rw [← here, List.getElem_cons_drop, List.take_append_drop]
  have rest : s.inFlight.eraseIdx index
      = s.inFlight.take index ++ s.inFlight.drop (index + 1) := List.eraseIdx_eq_take_drop_succ ..
  -- the ids are those of the rest and its own, so it is none of the rest
  have perm : s.tokens.Perm
      (m.id :: tokens { s with inFlight := s.inFlight.eraseIdx index }) := by
    have moved : s.inFlight.Perm (m :: s.inFlight.eraseIdx index) := by
      rw [rest]
      exact (List.Perm.of_eq split).trans List.perm_middle
    exact (moved.map Message.id).append_right _
  have unique := perm.nodup_iff.mp inv.unique
  have among {x : Message} (member : x ∈ s.inFlight.eraseIdx index) : x ∈ s.inFlight :=
    List.mem_of_mem_eraseIdx member
  refine ⟨⟨(List.nodup_cons.mp unique).2, ?_, inv.answered, ?_, ?_, inv.acknowledged⟩,
    (List.nodup_cons.mp unique).1⟩
  · exact fun x member => inv.carried x (among member)
  · exact fun x member => inv.placed x (among member)
  · exact fun x member => inv.stored x (among member)

section Concluding

variable {node : Node} {db : LevelDb} {id : Nat} {req : HttpRequest} {kvs : KvsRequest}
  {handled : Handled}
  (unused : id ∉ s.tokens) (asked : s.requests[id]? = some req) (view : viewOf req = some kvs)
  (outcome : Outcome d node db kvs handled)
  (before : kvs.Stores → kvs.putCall ∈ handled.calls → ∀ k, node = .backend k →
    s.StoredBefore k kvs)

include unused asked view outcome before

/-- Answering a request keeps the invariant. -/
theorem Inv.respond (has : d.Has node)
    : Inv d ((s.record node db handled.calls).respond node id handled.res) := by
  have recorded := inv.record node db handled.calls
  have known := (List.getElem?_eq_some_iff.mp asked).1
  refine ⟨?_, recorded.carried, ?_, recorded.placed, recorded.stored, ?_⟩
  · have tokens : tokens ((s.record node db handled.calls).respond node id handled.res)
        = s.tokens ++ [id] := by
      simp [tokens, System.record, System.respond]
    rw [tokens]
    exact (List.perm_append_singleton id s.tokens).nodup_iff.mpr
      (List.nodup_cons.mpr ⟨unused, inv.unique⟩)
  · intro rsp member
    rcases List.mem_append.mp member with earlier | new
    · exact inv.answered rsp earlier
    · obtain rfl := List.mem_singleton.mp new
      exact known
  · intro rsp member ok kvs' asked' stores
    rcases List.mem_append.mp member with earlier | new
    · exact recorded.acknowledged rsp earlier ok kvs' asked' stores
    · obtain rfl := List.mem_singleton.mp new
      obtain ⟨r, found, seen⟩ := asked'
      obtain rfl : req = r := Option.some.inj (asked.symm.trans found)
      obtain rfl : kvs = kvs' := Option.some.inj (view.symm.trans seen)
      -- the one who acknowledges is the last, and has just stored the PUT itself
      obtain ⟨k, here, last, done⟩ := outcome.acknowledges ok stores
      have inside : k < d.length := by
        rw [here] at has
        exact has
      have length : d.length = k + 1 := by omega
      refine ⟨?_, ?_⟩
      · rw [length, Nat.add_sub_cancel]
        exact here
      · rw [length]
        exact (before stores done.1 _ here).succ done here

/-- Handing a request on keeps the invariant. -/
theorem Inv.handOver (settled : Settled req) (handoff : handled.res.status = 600)
    {after : System}
    (did : (s.record node db handled.calls).handOver d node id (httpRequestExport req) handled.res
      = some after)
    : Inv d after := by
  obtain ⟨dest, leads, rfl⟩ := Option.map_eq_some_iff.mp did
  have recorded := inv.record node db handled.calls
  obtain ⟨placed, continues⟩ := outcome.handsOver handoff dest leads
  refine ⟨?_, ?_, recorded.answered, ?_, ?_, recorded.acknowledged⟩
  · have tokens : tokens { s.record node db handled.calls with
          inFlight := s.inFlight ++ [⟨dest, id, httpRequestExport req⟩] }
        = s.inFlight.map Message.id ++ id :: s.responses.map Response.id := by
      simp [tokens, System.record]
    have unique := (@List.perm_middle _ id (s.inFlight.map Message.id)
      (s.responses.map Response.id)).nodup_iff.mpr (List.nodup_cons.mpr ⟨unused, inv.unique⟩)
    rw [← tokens] at unique
    exact unique
  · intro m member
    rcases List.mem_append.mp member with earlier | new
    · exact recorded.carried m earlier
    · obtain rfl := List.mem_singleton.mp new
      exact ⟨req, asked, settled, rfl⟩
  · intro m member
    rcases List.mem_append.mp member with earlier | new
    · exact inv.placed m earlier
    · obtain rfl := List.mem_singleton.mp new
      exact placed
  · intro m member kvs' asked' stores k there
    rcases List.mem_append.mp member with earlier | new
    · exact recorded.stored m earlier kvs' asked' stores k there
    · obtain rfl := List.mem_singleton.mp new
      obtain ⟨r, found, seen⟩ := asked'
      obtain rfl : req = r := Option.some.inj (asked.symm.trans found)
      obtain rfl : kvs = kvs' := Option.some.inj (view.symm.trans seen)
      -- the message goes to the head, before which there is none, or one place on
      rcases continues stores k there with rfl | ⟨j, rfl, here, done⟩
      · intro j none_before
        exact absurd none_before (Nat.not_lt_zero j)
      · exact (before stores done.1 _ here).succ done here

end Concluding

end Steps

/-- Reading a request keeps the invariant. -/
theorem Inv.onRead {d : Deployment} {s after : System} (inv : Inv d s) {node : Node}
    (has : d.Has node) {req : HttpRequest} (settled : Settled req) {res : HttpResponse}
    {env : Env} (did : s.onRead d node req res env = some after)
    : Inv d after := by
  unfold System.onRead at did
  obtain ⟨kvs, view, did⟩ := Option.bind_eq_some_iff.mp did
  obtain ⟨handled, handles, did⟩ := Option.bind_eq_some_iff.mp did
  have outcome := handler_outcome rfl handles
  have unused : s.requests.length ∉ s.tokens := fun token =>
    Nat.lt_irrefl _ (inv.known token)
  have asked : (s.requests ++ [req])[s.requests.length]? = some req :=
    List.getElem?_concat_length
  -- a request that was not imported is not stored yet
  have before : kvs.Stores → kvs.putCall ∈ handled.calls → ∀ k, node = .backend k →
      StoredBefore { s with requests := s.requests ++ [req] } k kvs := by
    rintro - called k rfl
    obtain rfl := Option.some.inj handles
    cases called
  split at did
  · next handoff =>
      exact (inv.read req).handOver unused asked view outcome before settled handoff did
  · obtain rfl := Option.some.inj did
    exact (inv.read req).respond unused asked view outcome before has

/-- Handling a handoff message keeps the invariant. -/
theorem Inv.onHandoff {d : Deployment} {s after : System} (inv : Inv d s) {index : Nat}
    {m : Message} (found : s.inFlight[index]? = some m) {reqBlock reqGrown head body : Block}
    {env : Env}
    (did : onHandoff d { s with inFlight := s.inFlight.eraseIdx index } m reqBlock reqGrown head
      body env = some after)
    : Inv d after := by
  have member : m ∈ s.inFlight := List.mem_of_getElem? found
  obtain ⟨taken, unused⟩ := inv.take found
  obtain ⟨original, asked, settled, http⟩ := inv.carried m member
  unfold System.onHandoff at did
  rw [http] at did
  obtain ⟨req, imports, did⟩ := Option.bind_eq_some_iff.mp did
  obtain ⟨kvs, view, did⟩ := Option.bind_eq_some_iff.mp did
  obtain ⟨handled, handles, did⟩ := Option.bind_eq_some_iff.mp did
  rw [viewOf_import settled imports] at view
  have outcome := handler_outcome rfl handles
  have before : kvs.Stores → kvs.putCall ∈ handled.calls → ∀ k, m.dest = .backend k →
      s.StoredBefore k kvs :=
    fun stores _ k here => inv.stored m member kvs ⟨original, asked, view⟩ stores k here
  dsimp only at did
  split at did
  · obtain rfl := Option.some.inj did
    exact taken.respond unused asked view outcome before (inv.placed m member)
  · split at did
    · next handoff =>
        exact taken.handOver unused asked view outcome before settled handoff did
    · cases did

/-- Every step keeps the invariant. -/
theorem Inv.step {d : Deployment} {s after : System} {event : ChainEvent} (inv : Inv d s)
    (fires : Fires (next? d) s event after)
    : Inv d after := by
  cases event with
  | read node req res env =>
      have did : (if d.Has node then s.onRead d node req.1 res env else none) = some after :=
        fires
      split at did
      · next has => exact inv.onRead has req.2 did
      · cases did
  | deliver index reqBlock reqGrown head body env =>
      obtain ⟨m, found, did⟩ := Option.bind_eq_some_iff.mp fires
      exact inv.onHandoff found did

/-- The invariant holds in every reachable state, by induction on the run. -/
theorem Inv.of_reachable {d : Deployment} {s : System}
    (reached : Reachable (· = System.empty) (Fires (next? d)) s)
    : Inv d s := by
  refine reached.invariant ?_ fun _ _ _ inv fires => Inv.step inv fires
  rintro _ rfl
  refine ⟨List.nodup_nil, ?_, ?_, ?_, ?_, ?_⟩ <;> intro _ member <;> cases member

end System

/-- In every state that any requests and any order of deliveries lead to, a PUT answered with
200 was put into the database of every backend with status OK and answered by the last, and no
request is answered twice.
-/
theorem acknowledged_everywhere (d : Deployment) {s : System}
    (reached : Reachable (· = System.empty) (Fires (System.next? d)) s)
    : (∀ rsp ∈ s.responses,
        rsp.status = 200
        → ∀ req kvs,
            s.requests[rsp.id]? = some req
            → viewOf req = some kvs
            → kvs.MethodIs "PUT"
            → kvs.body ≠ []
            → rsp.node = .backend (d.length - 1)
              ∧ ∀ k < d.length, ⟨.backend k, .put kvs.path kvs.body, true⟩ ∈ s.calls)
      ∧ (s.responses.map Response.id).Nodup := by
  have inv := System.Inv.of_reachable reached
  refine ⟨?_, (List.nodup_append.mp inv.unique).2.1⟩
  intro rsp member ok req kvs found view put some_body
  exact inv.acknowledged rsp member ok kvs ⟨req, found, view⟩ ⟨put, some_body⟩

section Sample

/-- Two backends, with the first alone in the proxy's list. -/
def samplePair : Deployment where
  length := 2
  listed := fun _ => 0
  positive := by decide
  listed_lt := fun _ => by decide
  first := rfl

def sampleEnv : Env where
  pool := ⟨0, 1⟩
  db := ⟨fun _ => .notFound, fun _ _ => true, fun _ => true⟩
  grown := ⟨0, fun _ => 0⟩

def samplePut : { req : HttpRequest // Settled req } :=
  ⟨sampleTransfer,
    by decide, by decide, by decide +kernel, by decide +kernel, fun _ => by decide⟩

/-- The PUT is read by the proxy and handled by both backends. -/
def sampleRequestEvents : List ChainEvent :=
  let block : Block := ⟨65536, fun _ => 0⟩
  [.read .proxy samplePut (httpResponseInit block block) sampleEnv,
    .deliver 0 block block block block sampleEnv,
    .deliver 0 block block block block sampleEnv]

def sampleReplicated : System :=
  Transition.final System.empty (runOf (System.next? samplePair) System.empty sampleRequestEvents)

/-- The run of the example is one of the system. -/
theorem sampleReplicated_reached
    : Reachable (· = System.empty) (Fires (System.next? samplePair)) sampleReplicated :=
  (runOf_path _ _ _).reachable_final (.start rfl)

/-- A PUT that both backends stored is acknowledged, and each database took its value. -/
theorem acknowledged_everywhere_sample
    : ⟨.backend 0, .put [0x2f, 0x6b] [0x78, 0x79], true⟩ ∈ sampleReplicated.calls
      ∧ ⟨.backend 1, .put [0x2f, 0x6b] [0x78, 0x79], true⟩ ∈ sampleReplicated.calls := by
  have answered : ∃ rsp ∈ sampleReplicated.responses, rsp.id = 0 ∧ rsp.status = 200 := by
    decide +kernel
  obtain ⟨rsp, member, id, ok⟩ := answered
  have known : sampleReplicated.requests[rsp.id]? = some sampleTransfer := by
    rw [id]
    rfl
  have stored := ((acknowledged_everywhere samplePair sampleReplicated_reached).1 rsp member ok
    sampleTransfer _ known rfl (by decide +kernel) (by decide +kernel)).2
  exact ⟨stored 0 (by decide), stored 1 (by decide)⟩

end Sample

end PrismHTTP.Kvs
