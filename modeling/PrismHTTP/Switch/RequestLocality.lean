import PrismHTTP.Switch.HandoffHistory
import PrismHTTP.Switch.ReplyStatus

/-! Control requests are atomic and local.
Only a complete request of a known type changes the rules, only under the key it names, and
only when its handler returns zero. A rule therefore depends on the requests that named its
flow and succeeded, whatever else ran through the switch.
-/

namespace PrismHTTP.Switch
open ByteLayout

/-- The handler of a complete request returns the result of executing it. -/
theorem handlerResult_of_configReq {conf : Config} {md : XdpMd} {req : PswReq}
    (carried : configReq conf md.frame = some req) (st : SwitchState)
    : handlerResult st md = some (req.execute st.prism).2 := by
  unfold configReq at carried
  split at carried
  case isFalse => contradiction
  case isTrue =>
    have ran := @configHandleReq_decoded (.atPayload st md) req carried
    rw [handlerResult, ran]
    rfl

/-- A request that fails leaves every rule as it was. -/
theorem PswReq.execute_failed {req : PswReq} {prism : PrismTable}
    (failed : (req.execute prism).2 ≠ 0)
    : (req.execute prism).1 = prism := by
  have refused : ¬ req.Feasible prism := fun feasible =>
    failed (execute_result_zero_iff.mpr feasible)
  rw [execute_refused refused]

/-- A datagram with a complete request runs `configure_switch`, whose handler executes it; the
reply is prepared from what the handler leaves and returns.
-/
theorem valeLookupParse_of_configReq {conf : Config} {md : XdpMd} {req : PswReq}
    (carried : configReq conf md.frame = some req) (st : SwitchState)
    : ∃ handled,
        configHandleReq (.atPayload st md) = some (handled, (req.execute st.prism).2)
        ∧ (valeLookupParse conf st md).ctx
          = configPrepareResponse handled (req.execute st.prism).2 := by
  unfold configReq at carried
  split at carried
  case isFalse => contradiction
  case isTrue config =>
    have ran := @configHandleReq_decoded (.atPayload st md) req carried
    have base : (PacketCtx.atPayload st md).cur + sizeofPswReqBase
        ≤ (PacketCtx.atPayload st md).frame.length := decodeReq_base carried
    refine ⟨_, ran, ?_⟩
    rw [valeLookupParse_config config, configLookup_ctx, configureSwitch]
    rw [if_neg (not_not.mpr base), ran]
    rfl

/-- Whatever the frame, the rules change only by a complete request of a known type, only
under the key decoded from it, and not at all when its handler fails. The handler returns
zero exactly when the key is new and there is room for an ADD, and present for the others; then
the rule it makes of the one it found is in the table. The result is that of the handler the
frame runs, by `valeLookupParse_of_configReq`.
-/
theorem control_requests_atomic (conf : Config) (st : SwitchState) (md : XdpMd)
    : ((valeLookup conf st md).state.prism ≠ st.prism
        → ∃ req, configReq conf md.frame = some req)
      ∧ (ParsesConfig conf md.frame
        → ∀ result, handlerResult st md = some result → result ≠ 0
        → (valeLookup conf st md).state.prism = st.prism)
      ∧ ∀ req, configReq conf md.frame = some req
        → (∀ key, key ≠ req.key
            → (valeLookup conf st md).state.prism.lookup key = st.prism.lookup key)
          ∧ ∃ handled result,
              configHandleReq (.atPayload st md) = some (handled, result)
              ∧ (valeLookupParse conf st md).ctx = configPrepareResponse handled result
              ∧ handlerResult st md = some result
              ∧ (result = 0 ↔ req.Feasible st.prism)
              ∧ (result = 0
                → ∃ stored,
                    req.onRule (st.prism.lookup req.key) = .ok stored
                    ∧ (valeLookup conf st md).state.prism.lookup req.key = stored) := by
  have table := valeLookup_prism conf st md
  refine ⟨?_, ?_, ?_⟩
  -- without a request in the frame the table is the old one
  · intro changed
    cases carried : configReq conf md.frame with
    | some req => exact ⟨req, rfl⟩
    | none =>
        rw [carried] at table
        exact absurd table changed
  -- a failed request is the only one whose result is not zero
  · intro _ result returned failed
    cases carried : configReq conf md.frame with
    | none => rw [table, carried]
    | some req =>
        have same := handlerResult_of_configReq carried st
        obtain rfl := Option.some.inj (returned.symm.trans same)
        rw [table, carried]
        exact PswReq.execute_failed failed
  · intro req carried
    rw [carried] at table
    obtain ⟨handled, ran, built⟩ := valeLookupParse_of_configReq carried st
    refine ⟨?_, handled, _, ran, built, handlerResult_of_configReq carried st,
      PswReq.execute_result_zero_iff, ?_⟩
    · intro key other
      rw [table]
      exact PswReq.execute_lookup_ne other
    · intro zero
      obtain ⟨-, stored, acts, lookups⟩ :=
        (PswReq.execute_result_zero_iff.mp zero).execute
      refine ⟨stored, acts, ?_⟩
      rw [table, lookups, if_pos rfl]

/-- An ADD datagram for the sample rule. -/
def sampleAddDatagram : XdpMd where
  frame := bareDatagram ⟨1, 2⟩ ⟨0x0100000a, 0x3930⟩ (PswReq.add sampleAdd).store
  ingressIfindex := 1

/-- In an empty table the ADD succeeds, and its rule is found there. -/
theorem control_requests_atomic_sample
    : handlerResult .empty sampleAddDatagram = some 0
      ∧ (valeLookup ⟨1, 2⟩ .empty sampleAddDatagram).state.prism.lookup (PswReq.add sampleAdd).key
        = some sampleAdd.rule := by
  obtain ⟨-, -, own⟩ := control_requests_atomic ⟨1, 2⟩ .empty sampleAddDatagram
  obtain ⟨-, handled, result, -, -, returned, zero_iff, effect⟩ :=
    own (.add sampleAdd) (configReq_bareDatagram ⟨1, 2⟩ ⟨0x0100000a, 0x3930⟩ (.add sampleAdd))
  obtain rfl := zero_iff.mpr (by decide)
  obtain ⟨stored, acts, found⟩ := effect rfl
  obtain rfl : some sampleAdd.rule = stored := Except.ok.inj acts
  exact ⟨returned, found⟩

/-- Along any run a flow keeps its rule while no request that names it succeeds, by induction
on the frames.
-/
theorem valeRun_lookup_kept {conf : Config} {key : PrismKey} (frames : List XdpMd)
    {st : SwitchState}
    (untouched : ∀ entry ∈ controlHistory conf st frames, entry.1.key = key → entry.2 ≠ 0)
    : (valeRun conf st frames).prism.lookup key = st.prism.lookup key := by
  induction frames generalizing st with
  | nil => rfl
  | cons md rest ih =>
      have table := valeLookup_prism conf st md
      simp only [valeRun, controlHistory] at untouched ⊢
      cases carried : configReq conf md.frame with
      | none =>
          simp only [carried] at untouched table
          rw [ih untouched, table]
      | some req =>
          simp only [carried, List.mem_cons, forall_eq_or_imp] at untouched table
          rw [ih untouched.2, table]
          -- a request for this key has failed by assumption, one for another key stays away
          -- from it
          by_cases own : req.key = key
          · rw [PswReq.execute_failed (untouched.1 own)]
          · exact PswReq.execute_lookup_ne (Ne.symm own)

end PrismHTTP.Switch
