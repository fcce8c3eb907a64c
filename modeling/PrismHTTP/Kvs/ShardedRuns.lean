import Mathlib.Data.List.Forall2
import Mathlib.Data.List.Perm.Basic
import PrismHTTP.Kvs.ShardedStore

/-! The sharded store serves its clients as one map would.
A request is answered by the backend responsible for its path, which cannot tell its own part
from the whole map; so the answers, in the order in which they were given, are those of a single
map.
-/

namespace PrismHTTP.Kvs.Sharded
open PrismHTTP.Server MemoryBlock Transition PartitionedMap

namespace System

/-- The requests in the order in which they were answered. -/
def served (s : System) : List (KvsRequest × DbStatus) :=
  s.answered.map fun ans => (ans.asked, ans.status)

/-- The ids of the requests under way and of those answered. -/
def ids (s : System) : List Nat := s.inFlight.map Message.id ++ s.answered.map Answer.id

/-- A message carries a request that was read, and to a backend only one it is responsible for.
-/
structure Carries (d : Shards) (requests : List HttpRequest) (m : Message) (kvs : KvsRequest)
    : Prop where
  request : ∃ req, requests[m.id]? = some req ∧ viewOf req = some kvs ∧ Settled req
    ∧ m.http = httpRequestExport req
  placed : ∀ k, m.dest = .backend k → k = d.shard kvs.path

/-- Every request is under way or answered once, the replies are those of one map, and the
backends hold that map in parts.
-/
structure Inv (d : Shards) (content : Nat → Store) (s : System) : Prop where
  once : s.ids.Perm (List.range s.requests.length)
  carried : ∀ m ∈ s.inFlight, ∃ kvs, Carries d s.requests m kvs
  asked : ∀ ans ∈ s.answered, ∃ req, s.requests[ans.id]? = some req
    ∧ viewOf req = some ans.asked ∧ Settled req
  replies
    : List.Forall₂ Reply.Of (replay serve (whole d.shard content) s.served).1
        (s.answered.map Answer.res)
  stores : whole d.shard s.stores = (replay serve (whole d.shard content) s.served).2
  foreign : ∀ k path, d.shard path ≠ k → s.stores k path = content k path

section Steps

variable {d : Shards} {content : Nat → Store} {s : System}

/-- Without a call no store changes. -/
theorem perform_nil (s : System) (status : DbStatus) (node : Node)
    : s.perform [] status node = s := by
  cases node with
  | proxy => rfl
  | backend k =>
      have kept : (s.stores k).after [] status = s.stores k := by
        unfold Store.after
        split <;> rfl
      rw [perform, kept, Function.update_eq_self]

/-- A request that is read goes on as a message: from the proxy to the backend responsible for
its path, from a backend to the proxy. By the handlers of both.
-/
theorem onRead_cases {node : Node} {req : HttpRequest} {res : HttpResponse} {turn : Turn}
    {after : System} (small : req.mem.size ≤ 2 ^ 64)
    (did : s.onRead d node req res turn = some after)
    : ∃ kvs dest,
        viewOf req = some kvs
        ∧ (∀ k, dest = .backend k → k = d.shard kvs.path)
        ∧ after = { s with
            requests := s.requests ++ [req]
            inFlight := s.inFlight ++ [⟨dest, s.requests.length, httpRequestExport req⟩] } := by
  obtain ⟨kvs, view, did⟩ := Option.bind_eq_some_iff.mp did
  obtain ⟨handled, handles, did⟩ := Option.bind_eq_some_iff.mp did
  cases node with
  | proxy =>
      rw [d.handler_proxy view small] at handles
      split at handles
      · obtain rfl := Option.some.inj handles
        rw [if_pos (by rfl)] at did
        obtain rfl := Option.some.inj did
        refine ⟨kvs, .backend (d.shard kvs.path), view, ?_, rfl⟩
        exact fun k same => (Node.backend.inj same).symm
      · cases handles
  | backend k =>
      obtain rfl := Option.some.inj handles
      rw [if_pos (by rfl), perform_nil] at did
      obtain rfl := Option.some.inj did
      exact ⟨kvs, .proxy, view, fun k same => (by cases same), rfl⟩

/-- A message is handed on by the proxy to the backend responsible for its path, and answered by
a backend as the map would.
-/
theorem onHandoff_cases {m : Message} {turn : Turn} {after : System} {kvs : KvsRequest}
    (carries : Carries d s.requests m kvs) (did : s.onHandoff d m turn = some after)
    : (m.dest = .proxy
        ∧ after = { s with
            inFlight := s.inFlight ++ [⟨.backend (d.shard kvs.path), m.id, m.http⟩] })
      ∨ ∃ handled,
          m.dest = .backend (d.shard kvs.path)
          ∧ Served (s.stores (d.shard kvs.path)) (kvs, turn.status) handled
          ∧ after
            = (s.perform handled.calls turn.status (.backend (d.shard kvs.path))).respond
              ⟨m.id, m.dest, kvs, turn.status, handled.res⟩ := by
  obtain ⟨⟨original, -, view, settled, http⟩, placed⟩ := carries
  unfold System.onHandoff at did
  rw [http] at did
  obtain ⟨req, imports, did⟩ := Option.bind_eq_some_iff.mp did
  obtain ⟨kvs', view', did⟩ := Option.bind_eq_some_iff.mp did
  obtain ⟨handled, handles, did⟩ := Option.bind_eq_some_iff.mp did
  -- the transfer keeps the request the handler sees
  obtain rfl : kvs = kvs' := by
    rw [viewOf_import settled imports, view] at view'
    exact Option.some.inj view'
  -- the proxy only forwards, and a message for a backend is at the one that owns the path
  cases dest : m.dest with
  | proxy =>
      obtain ⟨mem, rfl, -, size⟩ := exists_move_of_import settled imports
      have small : (original.move mem).mem.size ≤ 2 ^ 64 := by
        change mem.size ≤ 2 ^ 64
        rw [size]
        decide
      rw [dest, d.handler_proxy view' small] at handles
      split at handles
      · obtain rfl := Option.some.inj handles
        dsimp only at did
        have high : ¬ (handoffTo (httpResponseInit turn.head turn.body)
            (.entry (d.slot kvs.path).toNat)).status ≤ 500 :=
          (by decide : ¬ (600 : UInt32) ≤ 500)
        rw [if_neg high, if_pos (by rfl), dest] at did
        obtain rfl := Option.some.inj did
        exact .inl ⟨rfl, by rw [http]; rfl⟩
      · cases handles
  | backend k =>
      obtain rfl := placed k dest
      rw [dest] at handles
      have meant : Served (s.stores (d.shard kvs.path)) (kvs, turn.status) handled :=
        served_backend (untouched_init turn.head turn.body) handles
      rw [if_pos meant.low, dest] at did
      exact .inr ⟨handled, rfl, meant, (Option.some.inj did).symm⟩

/-- The request a message carries stays where it is when others are read. -/
theorem Carries.later {requests : List HttpRequest} {m : Message} {kvs : KvsRequest}
    (carries : Carries d requests m kvs) (req : HttpRequest)
    : Carries d (requests ++ [req]) m kvs := by
  obtain ⟨⟨original, found, rest⟩, placed⟩ := carries
  refine ⟨⟨original, ?_, rest⟩, placed⟩
  exact (List.getElem?_append_left (List.getElem?_eq_some_iff.mp found).1).trans found

/-- Reading a request keeps the invariant: it is under way under a new id. -/
theorem Inv.read (inv : Inv d content s) {kvs : KvsRequest} {req : HttpRequest} {dest : Node}
    (settled : Settled req) (view : viewOf req = some kvs)
    (placed : ∀ k, dest = .backend k → k = d.shard kvs.path)
    : Inv d content { s with
        requests := s.requests ++ [req]
        inFlight := s.inFlight ++ [⟨dest, s.requests.length, httpRequestExport req⟩] } where
  once := by
    simp only [ids, List.map_append, List.map_cons, List.map_nil, List.length_append,
      List.length_singleton, List.range_succ, List.append_assoc]
    have last := (inv.once.append_right [s.requests.length])
    refine List.Perm.trans ?_ last
    rw [ids, List.append_assoc]
    exact List.perm_append_comm.append_left _
  carried m member := by
    rcases List.mem_append.mp member with earlier | new
    · obtain ⟨kvs', carries⟩ := inv.carried m earlier
      exact ⟨kvs', carries.later req⟩
    · obtain rfl := List.mem_singleton.mp new
      exact ⟨kvs, ⟨req, List.getElem?_concat_length, view, settled, rfl⟩, placed⟩
  asked ans member := by
    obtain ⟨original, found, seen⟩ := inv.asked ans member
    refine ⟨original, ?_, seen⟩
    exact (List.getElem?_append_left (List.getElem?_eq_some_iff.mp found).1).trans found
  replies := inv.replies
  stores := inv.stores
  foreign := inv.foreign

section Delivering

variable {index : Nat} {m : Message} {kvs : KvsRequest} (inv : Inv d content s)
  (found : s.inFlight[index]? = some m) (carries : Carries d s.requests m kvs)

include inv found

/-- The message taken, with the ids of the rest, has all ids once. -/
theorem Inv.once_taken
    : (m.id :: ((s.inFlight.eraseIdx index).map Message.id ++ s.answered.map Answer.id)).Perm
        (List.range s.requests.length) := by
  obtain ⟨inside, rfl⟩ := List.getElem?_eq_some_iff.mp found
  have moved := (List.getElem_cons_eraseIdx_perm inside).map Message.id
  exact (moved.append_right _).trans inv.once

include carries

/-- Handing a request on to its backend keeps the invariant. -/
theorem Inv.forward
    : Inv d content { s with
        inFlight := s.inFlight.eraseIdx index
          ++ [⟨.backend (d.shard kvs.path), m.id, m.http⟩] } where
  once := by
    refine List.Perm.trans ?_ (inv.once_taken found)
    simp only [ids, List.map_append, List.map_cons, List.map_nil, List.append_assoc]
    exact List.perm_middle
  carried m' member := by
    rcases List.mem_append.mp member with earlier | new
    · exact inv.carried m' (List.mem_of_mem_eraseIdx earlier)
    · obtain rfl := List.mem_singleton.mp new
      exact ⟨kvs, carries.request, fun k same => (Node.backend.inj same).symm⟩
  asked := inv.asked
  replies := inv.replies
  stores := inv.stores
  foreign := inv.foreign

/-- An answer keeps the invariant: the backend's part of the map is all that the request is
about.
-/
theorem Inv.answer {status : DbStatus} {handled : Handled}
    (meant : Served (s.stores (d.shard kvs.path)) (kvs, status) handled)
    : Inv d content
        (respond
          (perform { s with inFlight := s.inFlight.eraseIdx index } handled.calls status
            (.backend (d.shard kvs.path)))
          ⟨m.id, m.dest, kvs, status, handled.res⟩) := by
  -- the backend cannot tell its part from the whole
  have here : (serve (kvs, status) (s.stores (d.shard kvs.path))).1
        = (serve (kvs, status) (whole d.shard s.stores)).1
      ∧ whole d.shard (Function.update s.stores (d.shard kvs.path)
          (serve (kvs, status) (s.stores (d.shard kvs.path))).2)
        = (serve (kvs, status) (whole d.shard s.stores)).2 :=
    (serve_localTo (kvs, status)).at_shard s.stores
  have after : (respond
      (perform { s with inFlight := s.inFlight.eraseIdx index } handled.calls status
        (.backend (d.shard kvs.path)))
      ⟨m.id, m.dest, kvs, status, handled.res⟩).stores
      = Function.update s.stores (d.shard kvs.path)
          (serve (kvs, status) (s.stores (d.shard kvs.path))).2 := by
    rw [← meant.effect]
    rfl
  have order : (respond
      (perform { s with inFlight := s.inFlight.eraseIdx index } handled.calls status
        (.backend (d.shard kvs.path)))
      ⟨m.id, m.dest, kvs, status, handled.res⟩).served = s.served ++ [(kvs, status)] := by
    simp [System.served, respond, perform]
  refine ⟨?once, ?carried, ?asked, ?replies, ?stores, ?foreign⟩
  case once =>
    refine List.Perm.trans ?_ (inv.once_taken found)
    simp only [ids, respond, perform, List.map_append, List.map_cons, List.map_nil]
    rw [← List.append_assoc]
    exact List.perm_append_singleton _ _
  case carried => exact fun m' member => inv.carried m' (List.mem_of_mem_eraseIdx member)
  case asked =>
    intro ans member
    rcases List.mem_append.mp member with earlier | new
    · exact inv.asked ans earlier
    · obtain rfl := List.mem_singleton.mp new
      obtain ⟨original, known, view, settled, -⟩ := carries.request
      exact ⟨original, known, view, settled⟩
  case replies =>
    rw [order, replay_concat, ← inv.stores, ← here.1]
    simp only [respond, perform, List.map_append, List.map_cons, List.map_nil]
    exact List.rel_append inv.replies (.cons meant.reply .nil)
  case stores =>
    rw [order, replay_concat, after, ← inv.stores]
    exact here.2
  case foreign =>
    intro k path foreign
    rw [after, (serve_localTo (kvs, status)).foreign s.stores foreign]
    exact inv.foreign k path foreign

end Delivering

/-- Every step keeps the invariant, by what reading and handling a message can do. -/
theorem Inv.step {event : ShardEvent} {after : System} (inv : Inv d content s)
    (fires : Fires (next? d) s event after)
    : Inv d content after := by
  cases event with
  | read node req res turn =>
      obtain ⟨kvs, dest, view, placed, rfl⟩ := onRead_cases req.2.2 fires
      exact inv.read req.2.1 view placed
  | deliver index turn =>
      obtain ⟨m, found, did⟩ := Option.bind_eq_some_iff.mp fires
      obtain ⟨kvs, carries⟩ := inv.carried m (List.mem_of_getElem? found)
      have taken : Carries d { s with inFlight := s.inFlight.eraseIdx index }.requests m kvs :=
        carries
      rcases onHandoff_cases taken did with ⟨-, rfl⟩ | ⟨handled, -, meant, rfl⟩
      · exact inv.forward found carries
      · exact inv.answer found carries meant

/-- The invariant holds in every reachable state, by induction on the run. -/
theorem Inv.of_reachable (reached : Reachable (· = start content) (Fires (next? d)) s)
    : Inv d content s := by
  refine reached.invariant ?_ fun _ _ _ inv fires => Inv.step inv fires
  rintro _ rfl
  exact ⟨.nil, fun _ member => (by cases member), fun _ member => (by cases member), .nil, rfl,
    fun _ _ _ => rfl⟩

end Steps

end System

section Sample

/-- A PUT of "xy" at "/k". -/
def sampleRead : ReadRequest := ⟨sampleTransfer, settled_sampleTransfer, by decide⟩

end Sample

end PrismHTTP.Kvs.Sharded
