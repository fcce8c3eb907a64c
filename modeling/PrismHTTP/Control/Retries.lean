import PrismHTTP.Control.Channel
import PrismHTTP.Switch.FlowRewrite
import PrismHTTP.Switch.RuleEffects

/-! Retransmission and the table of rules.
The switch keeps no memory of the requests it has executed, so a second copy of a request is
executed again. The table stays what the first arrivals make of it exactly as long as every
later copy finds a table it cannot change.
-/

namespace PrismHTTP.Control
open ByteLayout Switch LossyLink Transition

/-- The table obtained by executing requests once each, in order. -/
def executeOnce (prism : PrismTable) (arrived : List (Nat × PswReq)) : PrismTable :=
  arrived.foldl (fun table entry => (entry.2.execute table).1) prism

/-- Copies have left no trace: the table is that of the first arrivals alone. -/
def Transparent (switch : SwitchState) (s : Channel) : Prop :=
  s.switch.prism = executeOnce switch.prism s.arrived

instance (switch : SwitchState) (s : Channel) : Decidable (Transparent switch s) :=
  inferInstanceAs (Decidable (_ = _))

/-- A table the request cannot change: ADD finds its key or no room, the others no rule, or
CHOWN finds its own owner and does not touch the lock.
-/
def Inert (req : PswReq) (prism : PrismTable) : Prop :=
  match req with
  | .add _ => (prism.lookup req.key).isSome ∨ prism.Full
  | .chown chown =>
      ∀ val, prism.lookup req.key = some val → chown.unlock = 0 ∧ val.owner = chown.owner
  | _ => prism.lookup req.key = none

/-- An arriving datagram is the first copy of its request or finds it inert. -/
def HarmlessArrival (s : Channel) : Action → Prop
  | .arrive j =>
      ∀ d, s.toSwitch[j]? = some d
        → d.origin ∈ s.arrived.map Prod.fst
        → Inert d.request s.switch.prism
  | _ => True

/-- Toggling a lock field between two values always changes it. -/
theorem toggle_ne (locked : UInt8) {a b : UInt8} (distinct : b ≠ a)
    : (if locked = a then b else a) ≠ locked := by
  by_cases first : locked = a
  · rw [if_pos first, first]
    exact distinct
  · rw [if_neg first]
    exact Ne.symm first

/-- A request that is executed leaves the table alone exactly when it stores what it found. -/
theorem execute_eq_self_iff {req : PswReq} {prism : PrismTable} {stored : Option PrismValue}
    (feasible : req.Feasible prism) (acts : req.onRule (prism.lookup req.key) = .ok stored)
    : (req.execute prism).1 = prism ↔ stored = prism.lookup req.key := by
  obtain ⟨-, stored', acts', lookups⟩ := feasible.execute
  obtain rfl : stored = stored' := Except.ok.inj (acts.symm.trans acts')
  constructor
  · intro same
    have now := lookups req.key
    rw [same, if_pos rfl] at now
    exact now.symm
  · intro same
    apply BoundedMap.ext
    intro key
    rw [lookups]
    split
    case isTrue own => rw [own, same]
    case isFalse => rfl

/-- A request is refused by a table it cannot change. -/
theorem inert_of_refused {req : PswReq} {prism : PrismTable} (refused : ¬ req.Feasible prism)
    : Inert req prism := by
  cases req with
  | add req =>
      by_cases present : (prism.lookup (PswReq.add req).key).isSome
      · exact Or.inl present
      · refine Or.inr ?_
        by_contra room
        exact refused ⟨Option.not_isSome_iff_eq_none.mp present, room⟩
  | chown req =>
      intro val found
      exact absurd (Option.isSome_iff_exists.mpr ⟨val, found⟩) refused
  | delete req | lock req | unlock req => exact Option.not_isSome_iff_eq_none.mp refused

/-- CHOWN stores the rule it found exactly when it keeps the lock and names its owner. -/
theorem chown_stores_found_iff (req : PswChownReq) (val : PrismValue)
    : (PswReq.chown req).onRule (some val) = .ok (some val)
      ↔ req.unlock = 0 ∧ val.owner = req.owner := by
  have toggled := toggle_ne val.locked (a := 1) (b := 0) (by decide)
  simp only [PswReq.onRule, Except.ok.injEq, Option.some.injEq, PrismValue.owner,
    PswChownReq.owner, Owner.mk.injEq]
  by_cases keep : req.unlock = 0
  · obtain ⟨addr, port, ownerAddr, ownerPort, ownerMac, locked⟩ := val
    simp only [keep, ne_eq, not_true_eq_false, ↓reduceIte, PrismValue.mk.injEq, true_and,
      and_true]
    exact and_congr eq_comm (and_congr eq_comm eq_comm)
  · refine iff_of_false ?_ (fun inert => keep inert.1)
    intro same
    have locked := congrArg PrismValue.locked same
    simp only [ne_eq, keep, not_false_eq_true, ↓reduceIte] at locked
    exact toggled locked

/-- Execution leaves the table alone exactly when the request is inert there. -/
theorem inert_iff (req : PswReq) (prism : PrismTable)
    : (req.execute prism).1 = prism ↔ Inert req prism := by
  rcases req.execute_lookup_key prism with ⟨stored, feasible, acts, -⟩ | ⟨refused, -⟩
  · rw [execute_eq_self_iff feasible acts]
    cases req with
    | add req =>
        obtain ⟨absent, room⟩ := feasible
        rw [absent] at acts ⊢
        obtain rfl : some req.rule = stored := by simpa [PswReq.onRule] using acts
        simp [Inert, absent, room]
    | delete req =>
        obtain ⟨val, found⟩ := Option.isSome_iff_exists.mp feasible
        rw [found] at acts ⊢
        obtain rfl : none = stored := by simpa [PswReq.onRule] using acts
        simp [Inert, found]
    | chown req =>
        obtain ⟨val, found⟩ := Option.isSome_iff_exists.mp feasible
        rw [found] at acts ⊢
        have kept := chown_stores_found_iff req val
        rw [acts, Except.ok.injEq] at kept
        simp only [kept, Inert, found, Option.some.injEq, forall_eq']
    | lock req | unlock req =>
        obtain ⟨val, found⟩ := Option.isSome_iff_exists.mp feasible
        rw [found] at acts ⊢
        obtain rfl := Except.ok.inj acts
        -- `LOCK` and `UNLOCK` toggle the bit, so one that is executed always changes the rule
        refine iff_of_false ?_ (by simp [Inert, found])
        intro same
        exact toggle_ne val.locked (by decide)
          (congrArg PrismValue.locked (Option.some.inj same))
  · rw [PswReq.execute_refused refused]
    exact iff_of_true rfl (inert_of_refused refused)

/-- Every datagram on its way to the switch carries the request it is marked with. -/
def Marked (conf : Config) (s : Channel) : Prop :=
  ∀ d ∈ s.toSwitch, configReq conf d.packet.frame = some d.request

/-- Sending, noise and delivery keep the marks right. Witness: a new datagram is built from
its request, and every other step only drops or copies datagrams.
-/
theorem Marked.next {conf : Config} {s after : Channel} {action : Action}
    (marked : Marked conf s) (h : next conf s action = some after)
    : Marked conf after := by
  cases action with
  | queueTask sock req userCb packet =>
      obtain ⟨-, carries, rfl⟩ := queueTask_spec h
      intro d sent
      rcases List.mem_cons.mp sent with rfl | old
      · exact carries.configReq
      · exact marked d old
  | retrySend i packet =>
      obtain ⟨r, -, -, carries, rfl⟩ := retrySend_spec h
      intro d sent
      rcases List.mem_cons.mp sent with rfl | old
      · exact carries.configReq
      · exact marked d old
  | requestNoise noise =>
      obtain ⟨flight, noisy, rfl⟩ := Option.map_eq_some_iff.mp h
      exact fun d sent => marked d (noise.subset noisy sent)
  | replyNoise noise =>
      obtain ⟨flight, -, rfl⟩ := Option.map_eq_some_iff.mp h
      exact marked
  | arrive j =>
      obtain ⟨⟨d, rest⟩, taken, rfl⟩ := Option.map_eq_some_iff.mp h
      exact fun d sent => marked d ((take?_mem taken).2 sent)
  | reply j =>
      obtain ⟨d, rest, -, rfl | ⟨i, r, -, -, -, rfl⟩⟩ := reply_spec h
      · exact marked
      · exact marked

/-- Only arrivals touch the tables and the list of arrived requests. -/
theorem next_tables {conf : Config} {s after : Channel} {action : Action}
    (h : next conf s action = some after) (still : ∀ j, action ≠ .arrive j)
    : after.switch = s.switch ∧ after.arrived = s.arrived := by
  cases action with
  | queueTask sock req userCb packet =>
      obtain ⟨-, -, rfl⟩ := queueTask_spec h
      exact ⟨rfl, rfl⟩
  | retrySend i packet =>
      obtain ⟨r, -, -, -, rfl⟩ := retrySend_spec h
      exact ⟨rfl, rfl⟩
  | requestNoise noise | replyNoise noise =>
      obtain ⟨flight, -, rfl⟩ := Option.map_eq_some_iff.mp h
      exact ⟨rfl, rfl⟩
  | arrive j => exact absurd rfl (still j)
  | reply j =>
      obtain ⟨d, rest, -, rfl | ⟨i, r, -, -, -, rfl⟩⟩ := reply_spec h
      · exact ⟨rfl, rfl⟩
      · exact ⟨rfl, rfl⟩

/-- The latest of the requests is executed last. -/
theorem executeOnce_append (prism : PrismTable) (arrived : List (Nat × PswReq)) (id : Nat)
    (req : PswReq)
    : executeOnce prism (arrived ++ [(id, req)])
      = (req.execute (executeOnce prism arrived)).1 := by
  simp [executeOnce]

/-- From a transparent state a step leads to a transparent state exactly when it is
harmless.
-/
theorem transparent_next {conf : Config} {start : SwitchState} {s after : Channel}
    {action : Action} (marked : Marked conf s) (clean : Transparent start s)
    (h : next conf s action = some after)
    : Transparent start after ↔ HarmlessArrival s action := by
  by_cases arrives : ∃ j, action = .arrive j
  · obtain ⟨j, rfl⟩ := arrives
    obtain ⟨⟨d, rest⟩, taken, rfl⟩ := Option.map_eq_some_iff.mp h
    obtain ⟨d', found, same⟩ := Option.map_eq_some_iff.mp taken
    obtain ⟨rfl, rfl⟩ := Prod.mk.inj same
    have carried := marked d' (List.mem_of_getElem? found)
    simp only [Transparent, HarmlessArrival, found, Option.some.injEq, forall_eq',
      valeLookup_prism, carried]
    by_cases copy : d'.origin ∈ s.arrived.map Prod.fst
    · simp only [copy, ↓reduceIte, forall_const]
      rw [← clean]
      exact inert_iff _ _
    · simp only [copy, ↓reduceIte, false_imp_iff, iff_true]
      rw [executeOnce_append, ← clean]
  · have still : ∀ j, action ≠ .arrive j := fun j same => arrives ⟨j, same⟩
    obtain ⟨tables, record⟩ := next_tables h still
    refine iff_of_true ?_ ?_
    · rw [Transparent, tables, record]
      exact clean
    · cases action with
      | arrive j => exact absurd rfl (still j)
      | queueTask _ _ _ _ | retrySend _ _ | requestNoise _ | replyNoise _ | reply _ => trivial

/-- Along any run, retries are invisible exactly when every copy of a request that arrives
after the first finds a table it cannot change.
-/
theorem retries_invisible_iff {conf : Config} {switch : SwitchState}
    {run : List (Action × Channel)} (path : Run conf switch run)
    : EveryState (Transparent switch) (.start switch) run
      ↔ EveryStep HarmlessArrival (.start switch) run := by
  refine Path.everyState_iff_everyStep (I := Marked conf) path ?_ rfl ?_ ?_
  · intro d sent
    cases sent
  · exact fun s action after marked fired => marked.next fired
  · exact fun s action after marked clean fired => transparent_next marked clean fired

/-- A server registers a flow, then locks it; the reply to the LOCK takes longer than the
retry interval, so the switch receives the LOCK twice.
-/
def duplicatedLock : List Action :=
  let conf : Config := ⟨1, 2⟩
  let sock : Endpoint := ⟨0x0300000a, 0x3930⟩
  let add : PswReq :=
    .add
      {
        status := 0
        peerAddr := 0x0200000a
        peerPort := 0x901f
        virtualAddr := 0x0100000a
        virtualPort := 0x5000
        ownerAddr := 0x0300000a
        ownerPort := 0x9a1f
        ownerMac := sampleAdd.ownerMac
        lock := 0
      }
  let lock : PswReq := .lock { status := 0, peerAddr := 0x0200000a, peerPort := 0x901f }
  [.queueTask sock add true ⟨bareDatagram conf sock add.store, 1⟩,
    .arrive 0,
    .reply 0,
    .queueTask sock lock true ⟨bareDatagram conf sock lock.store, 1⟩,
    .retrySend 1 ⟨bareDatagram conf sock lock.store, 1⟩,
    .arrive 0,
    .arrive 0]

/-- The equivalence at a duplicated LOCK, where neither side holds. -/
theorem retries_invisible_iff_duplicatedLock
    : EveryState (Transparent .empty) (.start .empty) (actionsFrom ⟨1, 2⟩ .empty duplicatedLock)
      ↔ EveryStep HarmlessArrival (.start .empty) (actionsFrom ⟨1, 2⟩ .empty duplicatedLock) :=
  retries_invisible_iff (actionsFrom_run ⟨1, 2⟩ .empty duplicatedLock)

/-- The second copy unlocks the flow again, although LOCK was queued once. -/
theorem duplicatedLock_visible
    : Run ⟨1, 2⟩ .empty (actionsFrom ⟨1, 2⟩ .empty duplicatedLock)
      ∧ ¬ EveryState (Transparent .empty) (.start .empty)
        (actionsFrom ⟨1, 2⟩ .empty duplicatedLock) := by
  refine ⟨actionsFrom_run _ _ _, fun every => ?_⟩
  have last : ¬ Transparent .empty
      (final (.start .empty) (actionsFrom ⟨1, 2⟩ .empty duplicatedLock)) := by
    decide +kernel
  exact last every.final

end PrismHTTP.Control
