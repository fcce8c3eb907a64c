import PrismHTTP.Switch.FlowRewrite
import PrismHTTP.Switch.RuleEffects
import PrismHTTP.Switch.Datagram

/-! A client keeps one peer across handoffs.
The rule of a flow carries the virtual endpoint of its ADD and the owner of its latest
CHOWN through any traffic, and both rewrites follow that history.
-/

namespace PrismHTTP.Switch
open ByteLayout

/-- The tables after the frames went through the switch in order. -/
def valeRun (conf : Config) (st : SwitchState) : List XdpMd → SwitchState
  | [] => st
  | md :: rest => valeRun conf (valeLookup conf st md).state rest

/-- The control requests executed along a run, each with its handler's result. -/
def controlHistory (conf : Config) (st : SwitchState) : List XdpMd → List (PswReq × Int)
  | [] => []
  | md :: rest =>
      let later := controlHistory conf (valeLookup conf st md).state rest
      match configReq conf md.frame with
      | some req => (req, (req.execute st.prism).2) :: later
      | none => later

/-- The CHOWN in a history entry, when it is for the flow and succeeded. -/
def chownOf (key : PrismKey) : PswReq × Int → Option PswChownReq
  | (.chown req, result) =>
      if (PswReq.chown req).key = key ∧ result = 0 then some req else none
  | _ => none

/-- The owner of a flow by its history: the latest successful CHOWN's, or the given one. -/
def historyOwner (key : PrismKey) (registered : Owner) (history : List (PswReq × Int))
    : Owner :=
  (((history.filterMap (chownOf key)).getLast?).map PswChownReq.owner).getD registered

/-- One entry of a history hands its owner on to the rest. -/
theorem historyOwner_cons (key : PrismKey) (registered : Owner) (entry : PswReq × Int)
    (history : List (PswReq × Int))
    : historyOwner key registered (entry :: history)
      = historyOwner key (((chownOf key entry).map PswChownReq.owner).getD registered)
          history := by
  unfold historyOwner
  cases chown : chownOf key entry with
  | none => rw [List.filterMap_cons_none chown]; rfl
  | some req =>
      rw [List.filterMap_cons_some chown, List.getLast?_cons]
      cases (history.filterMap (chownOf key)).getLast? <;> rfl

/-- The flow's rule is there, with the virtual endpoint of its ADD and the given owner. -/
def Tracks (prism : PrismTable) (key : PrismKey) (add : PswAddReq) (owner : Owner) : Prop :=
  ∃ val,
    prism.lookup key = some val
    ∧ val.virtualAddr = add.virtualAddr
    ∧ val.virtualPort = add.virtualPort
    ∧ val.owner = owner

/-- The request is a DELETE that removes the flow's rule. -/
def RemovesRule (key : PrismKey) : PswReq × Int → Prop
  | (.delete req, result) => (PswReq.delete req).key = key ∧ result = 0
  | _ => False

/-- A new rule has the endpoints of its ADD. -/
theorem tracks_add {prism : PrismTable} {add : PswAddReq}
    (succeeds : ((PswReq.add add).execute prism).2 = 0)
    : Tracks ((PswReq.add add).execute prism).1 (PswReq.add add).key add add.owner := by
  have feasible := PswReq.execute_result_zero_iff.mp succeeds
  obtain ⟨-, stored, acts, lookups⟩ := feasible.execute
  rw [feasible.1] at acts
  obtain rfl : some add.rule = stored := by simpa [PswReq.onRule] using acts
  refine ⟨add.rule, ?_, rfl, rfl, rfl⟩
  rw [lookups, if_pos rfl]

/-- Requests that do not remove the rule keep its virtual endpoint, and only a successful
CHOWN of the flow changes its owner.
-/
theorem Tracks.execute {prism : PrismTable} {key : PrismKey} {add : PswAddReq} {owner : Owner}
    (tracks : Tracks prism key add owner) {req : PswReq}
    (kept : ¬ RemovesRule key (req, (req.execute prism).2))
    : Tracks (req.execute prism).1 key add
        (((chownOf key (req, (req.execute prism).2)).map PswChownReq.owner).getD owner) := by
  obtain ⟨val, found, addr, port, owned⟩ := tracks
  by_cases own : key = req.key
  · subst own
    rcases req.execute_lookup_key prism with ⟨stored, feasible, acts, now⟩ | ⟨refused, same⟩
    · have zero := PswReq.execute_result_zero_iff.mpr feasible
      -- of the requests that find a rule only DELETE removes it
      cases stored with
      | none =>
          cases req with
          | delete req => exact absurd ⟨rfl, zero⟩ kept
          | add req | chown req | lock req | unlock req =>
              simp [PswReq.onRule, found] at acts
      | some new =>
          rcases PswReq.onRule_stored acts with
            ⟨req, rfl, absent, -⟩ | ⟨old, was, sameAddr, samePort, newOwner, -⟩
          · rw [found] at absent
            contradiction
          · obtain rfl : val = old := Option.some.inj (found.symm.trans was)
            refine ⟨new, now, sameAddr.trans addr, samePort.trans port, ?_⟩
            rw [newOwner, owned]
            cases req with
            | chown req => simp [chownOf, zero, PswReq.newOwner]
            | add req | delete req | lock req | unlock req => rfl
    · refine ⟨val, same.trans found, addr, port, ?_⟩
      have failed : (req.execute prism).2 ≠ 0 := fun zero =>
        refused (PswReq.execute_result_zero_iff.mp zero)
      cases req with
      | chown req => simpa [chownOf, failed] using owned
      | add req | delete req | lock req | unlock req => exact owned
  -- a request of another flow
  · refine ⟨val, (PswReq.execute_lookup_ne own).trans found, addr, port, ?_⟩
    cases req with
    | chown req => simpa [chownOf, Ne.symm own] using owned
    | add req | delete req | lock req | unlock req => exact owned

/-- Along any run without a successful DELETE the rule keeps its ADD's virtual endpoint and
has the owner its history gives it, by induction on the frames.
-/
theorem Tracks.run {conf : Config} {key : PrismKey} {add : PswAddReq} (frames : List XdpMd)
    {st : SwitchState} {owner : Owner} (tracks : Tracks st.prism key add owner)
    (kept : ∀ entry ∈ controlHistory conf st frames, ¬ RemovesRule key entry)
    : Tracks (valeRun conf st frames).prism key add
        (historyOwner key owner (controlHistory conf st frames)) := by
  -- on the frames: one without a request keeps the table, one with a request keeps `Tracks`
  induction frames generalizing st owner with
  | nil => exact tracks
  | cons md rest ih =>
      have table := valeLookup_prism conf st md
      simp only [valeRun, controlHistory] at kept ⊢
      cases carried : configReq conf md.frame with
      | none =>
          simp only [carried] at kept table ⊢
          exact ih (table ▸ tracks) kept
      | some req =>
          simp only [carried, List.mem_cons, forall_eq_or_imp] at kept table ⊢
          rw [historyOwner_cons]
          exact ih (table ▸ tracks.execute kept.1) kept.2

/-- Once a flow is registered and as long as its rule stays, an unlocked rule presents the
client with the virtual endpoint of the ADD and the owner with the client's segments,
whatever ran through the switch in between.
-/
theorem handoff_transparent {conf : Config} {st : SwitchState} {first : XdpMd}
    {add : PswAddReq} {rest : List XdpMd} {val : PrismValue}
    (registers : configReq conf first.frame = some (.add add))
    (succeeds : ((PswReq.add add).execute st.prism).2 = 0)
    (kept : ∀ entry ∈ controlHistory conf (valeLookup conf st first).state rest,
      ¬ RemovesRule (PswReq.add add).key entry)
    (rule : (valeRun conf st (first :: rest)).prism.lookup (PswReq.add add).key = some val)
    (unlocked : val.locked = 0)
    {md : XdpMd} (tcp : ParsesTcp md.frame)
    : (dstKey md.frame = (PswReq.add add).key
        → ∃ ctx,
            valeLookupParse conf (valeRun conf st (first :: rest)) md = .gotoL2 ctx
            ∧ ipSrc ctx.frame = add.virtualAddr
            ∧ tcpSrc ctx.frame = add.virtualPort
            ∧ SameOutside outFields md.frame ctx.frame)
      ∧ (srcKey md.frame = (PswReq.add add).key
        → (valeRun conf st (first :: rest)).prism.lookup (dstKey md.frame) = none
        → ∃ ctx,
            valeLookupParse conf (valeRun conf st (first :: rest)) md = .gotoL2 ctx
            ∧ (⟨ipDst ctx.frame, tcpDst ctx.frame, ethDst ctx.frame⟩ : Owner)
              = historyOwner (PswReq.add add).key add.owner
                  (controlHistory conf (valeLookup conf st first).state rest)
            ∧ SameOutside inFields md.frame ctx.frame) := by
  have start : Tracks (valeLookup conf st first).state.prism (PswReq.add add).key add
      add.owner := by
    rw [valeLookup_prism, registers]
    exact tracks_add succeeds
  -- `Tracks` is the invariant of the run: the virtual endpoint stays, the owner is that of the
  -- history
  obtain ⟨now, found, addr, port, owned⟩ := start.run rest kept
  obtain rfl : val = now := Option.some.inj (rule.symm.trans found)
  refine ⟨?_, ?_⟩
  · intro toPeer
    obtain ⟨srcAddr, srcPort⟩ := outRewrite_src tcp.1 val
    rw [valeLookupParse_rules tcp, toPeer, rule]
    simp only [unlocked, ne_eq, not_true_eq_false, ↓reduceIte]
    exact ⟨_, rfl, srcAddr.trans addr, srcPort.trans port, outRewrite_same _ val⟩
  · intro fromPeer noRule
    obtain ⟨dstMac, dstAddr, dstPort⟩ := inRewrite_dst tcp.1 val
    have notOne : ¬ val.locked = 1 := by
      rw [unlocked]
      decide
    -- the destination is looked up first; only without a rule there the source's rule is asked
    rw [valeLookupParse_rules tcp, noRule, fromPeer, rule]
    simp only [notOne, ↓reduceIte]
    refine ⟨_, rfl, ?_, inRewrite_same _ val⟩
    rw [← owned, dstMac, dstAddr, dstPort]
    rfl

/-- The history of executing requests one after another. -/
def executeAll (prism : PrismTable) : List PswReq → PrismTable × List (PswReq × Int)
  | [] => (prism, [])
  | req :: rest =>
      let later := executeAll (req.execute prism).1 rest
      (later.1, (req, (req.execute prism).2) :: later.2)

/-- Bare datagrams execute exactly the requests stored in them, in order. -/
theorem valeRun_bareDatagram (conf : Config) (src : Endpoint) (port : UInt32)
    (reqs : List PswReq) (st : SwitchState)
    : let frames := reqs.map fun req => (⟨bareDatagram conf src req.store, port⟩ : XdpMd)
      executeAll st.prism reqs
        = ((valeRun conf st frames).prism, controlHistory conf st frames) := by
  induction reqs generalizing st with
  | nil => rfl
  | cons req rest ih =>
      -- a bare datagram carries the request it was made from and nothing else
      have carried := configReq_bareDatagram conf src req
      have table := valeLookup_prism conf st ⟨bareDatagram conf src req.store, port⟩
      simp only [carried] at table
      have later := ih (valeLookup conf st ⟨bareDatagram conf src req.store, port⟩).state
      rw [table] at later
      simp only [List.map_cons, executeAll, valeRun, controlHistory, carried, later]

/-- The sample flow is locked and handed to 10.0.0.4. -/
def sampleHandoff : List PswReq :=
  [.lock { status := 0, peerAddr := 0x0200000a, peerPort := 0x901f },
    .chown
      {
        status := 0
        peerAddr := 0x0200000a
        peerPort := 0x901f
        ownerAddr := 0x0400000a
        ownerPort := 0x9a1f
        ownerMac := #v[2, 0, 0, 0, 0, 4]
        unlock := 1
      }]

/-- After ADD, LOCK and CHOWN a segment of the flow goes on to the new owner. -/
theorem handoff_transparent_sample
    : let frames :=
        (PswReq.add sampleAdd :: sampleHandoff).map
          fun req => (⟨bareDatagram ⟨1, 2⟩ ⟨3, 4⟩ req.store, 1⟩ : XdpMd)
      ∃ ctx,
        valeLookupParse ⟨1, 2⟩ (valeRun ⟨1, 2⟩ .empty frames) ⟨sampleSegment, 1⟩ = .gotoL2 ctx
        ∧ (⟨ipDst ctx.frame, tcpDst ctx.frame, ethDst ctx.frame⟩ : Owner)
          = ⟨0x0400000a, 0x9a1f, #v[2, 0, 0, 0, 0, 4]⟩ := by
  have all := valeRun_bareDatagram ⟨1, 2⟩ ⟨3, 4⟩ 1 (.add sampleAdd :: sampleHandoff) .empty
  have carried := configReq_bareDatagram ⟨1, 2⟩ ⟨3, 4⟩ (.add sampleAdd)
  obtain ⟨tables, history⟩ := Prod.mk.inj all
  simp only [List.map_cons, controlHistory, carried] at history
  obtain ⟨-, history⟩ := List.cons.inj history
  have found : (executeAll .empty (.add sampleAdd :: sampleHandoff)).1.lookup
      (PswReq.add sampleAdd).key = some _ := rfl
  have unmatched : (executeAll .empty (.add sampleAdd :: sampleHandoff)).1.lookup
      (dstKey sampleSegment) = none := rfl
  rw [show (executeAll .empty (.add sampleAdd :: sampleHandoff)).1 = _ from tables]
    at found unmatched
  have kept : ∀ entry ∈ (executeAll ((PswReq.add sampleAdd).execute .empty).1
      sampleHandoff).2, ¬ RemovesRule (PswReq.add sampleAdd).key entry := by
    simp [executeAll, sampleHandoff, RemovesRule]
  rw [show (executeAll ((PswReq.add sampleAdd).execute .empty).1 sampleHandoff).2 = _
    from history] at kept
  obtain ⟨ctx, reaches, owner, -⟩ :=
    (@handoff_transparent _ _ _ _ _ _ carried (by decide) kept found (by decide)
      ⟨sampleSegment, 1⟩ (by decide)).2 (by decide) unmatched
  refine ⟨ctx, reaches, owner.trans ?_⟩
  exact (congrArg (historyOwner _ _) history.symm).trans (by decide)

end PrismHTTP.Switch
