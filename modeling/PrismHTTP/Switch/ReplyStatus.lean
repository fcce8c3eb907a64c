import PrismHTTP.Switch.RuleEffects
import PrismHTTP.Switch.Datagram

/-! The status field of a reply.
The reply builder adjusts the UDP checksum as if it stored the handler's result, but never
stores it: every reply carries the status field its request arrived with.
-/

namespace PrismHTTP.Switch
open ByteLayout

/-- The switch sends this datagram back to the port it came in by. -/
def Answers (conf : Config) (st : SwitchState) (md : XdpMd) : Prop :=
  ParsesConfig conf md.frame ∧ (configureSwitch (.atPayload st md)).abort = false

/-- The C result of the handler that runs for a datagram, if one does. -/
def handlerResult (st : SwitchState) (md : XdpMd) : Option Int :=
  (configHandleReq (.atPayload st md)).map Prod.snd

/-- An answered datagram leaves by its ingress port with the frame the dispatcher built. -/
theorem Answers.valeLookup {conf : Config} {st : SwitchState} {md : XdpMd}
    (h : Answers conf st md)
    : valeLookup conf st md
      = (configureSwitch (.atPayload st md)).verdict
          (configureSwitch (.atPayload st md)).sport := by
  rw [Switch.valeLookup, valeLookupParse_config h.1, configLookup]
  simp [h.2]

/-- An answered datagram passed the length check and reached a handler whose context and
result the reply was prepared from.
-/
theorem Answers.handled {conf : Config} {st : SwitchState} {md : XdpMd}
    (h : Answers conf st md)
    : sizeofEth + sizeofIp + sizeofUdp + sizeofPswReqBase ≤ md.frame.length
      ∧ ∃ handled error,
          configHandleReq (.atPayload st md) = some (handled, error)
          ∧ configureSwitch (.atPayload st md) = configPrepareResponse handled error := by
  have live := h.2
  unfold configureSwitch at live
  split at live
  case isTrue => contradiction
  case isFalse base =>
    refine ⟨not_not.mp base, ?_⟩
    cases ran : configHandleReq (.atPayload st md) with
    | none => simp [ran] at live
    | some result => exact ⟨result.1, result.2, rfl, by simp [configureSwitch, ran, not_not.mp base]⟩

/-- Handlers read the frame but never write it. -/
theorem configHandleReq_frame {ctx handled : PacketCtx} {error : Int}
    (ran : configHandleReq ctx = some (handled, error))
    : handled.frame = ctx.frame := by
  cases decoded : decodeReq ctx.frame ctx.cur with
  | some req =>
      rw [configHandleReq_decoded decoded] at ran
      obtain ⟨rfl, -⟩ := Prod.mk.inj (Option.some.inj ran)
      rfl
  | none =>
      rcases configHandleReq_undecoded decoded with unknown | ⟨type, -, truncated⟩
      · rw [unknown] at ran
        contradiction
      · rw [truncated] at ran
        obtain ⟨rfl, -⟩ := Prod.mk.inj (Option.some.inj ran)
        rfl

/-- A complete request is always answered, whatever its result. -/
theorem answers_of_configReq {conf : Config} {md : XdpMd} {req : PswReq}
    (carried : configReq conf md.frame = some req) (st : SwitchState)
    : Answers conf st md := by
  unfold configReq at carried
  split at carried
  case isFalse => contradiction
  case isTrue parses =>
    refine ⟨parses, ?_⟩
    have ran := @configHandleReq_decoded (.atPayload st md) req carried
    have base : (PacketCtx.atPayload st md).cur + sizeofPswReqBase
        ≤ (PacketCtx.atPayload st md).frame.length := decodeReq_base carried
    rw [configureSwitch, if_neg (not_not.mpr base), ran]
    exact configPrepareResponse_abort (req.execute_nonpos st.prism)

/-- A reply leaves by the port its request came in by, addressed to the sender. -/
theorem Answers.reply_address {conf : Config} {st : SwitchState} {md : XdpMd}
    (h : Answers conf st md)
    : (Switch.valeLookup conf st md).port = md.ingressIfindex
      ∧ frameDst (Switch.valeLookup conf st md).frame = frameSrc md.frame := by
  obtain ⟨-, handled, error, ran, built⟩ := h.handled
  have same : handled.frame = md.frame := configHandleReq_frame ran
  have answered : error ≤ 0 := by
    by_contra positive
    have live := h.2
    rw [built, configPrepareResponse, if_pos (by omega)] at live
    contradiction
  have sport : handled.sport = md.ingressIfindex := by
    cases decoded : decodeReq md.frame (sizeofEth + sizeofIp + sizeofUdp) with
    | some req =>
        have decodes := @configHandleReq_decoded (.atPayload st md) req decoded
        obtain ⟨rfl, -⟩ := Prod.mk.inj (Option.some.inj (ran.symm.trans decodes))
        rfl
    | none =>
        rcases @configHandleReq_undecoded (.atPayload st md) decoded with
          unknown | ⟨type, -, truncated⟩
        · rw [unknown] at ran
          contradiction
        · obtain ⟨rfl, -⟩ := Prod.mk.inj (Option.some.inj (ran.symm.trans truncated))
          rfl
  rw [h.valeLookup]
  simp only [PacketCtx.verdict, built, configPrepareResponse_sport, sport, true_and]
  have long : sizeofEth + sizeofIp + sizeofUdp ≤ handled.frame.length := same ▸ h.1.1
  rw [configPrepareResponse_frameDst long answered, same]

/-- Every reply carries the status field of its own request. -/
theorem Answers.reply_status {conf : Config} {st : SwitchState} {md : XdpMd}
    (h : Answers conf st md)
    : prbStatus (Switch.valeLookup conf st md).frame = prbStatus md.frame := by
  obtain ⟨-, handled, error, ran, built⟩ := h.handled
  have same : handled.frame = md.frame := configHandleReq_frame ran
  rw [h.valeLookup]
  simp only [PacketCtx.verdict, built, prbStatus]
  rw [← same]
  exact get16_congr (configPrepareResponse_payload _ _ (by decide))
    (configPrepareResponse_payload _ _ (by decide))

/-- The status this table calls for: 17 for an ADD of a present key and 7 for one into a
full table, 2 for any other request without a rule, and 0 when the change can be made.
-/
def PswReq.dueStatus : PswReq → PrismTable → UInt16
  | .add req, prism =>
      if (prism.lookup (PswReq.add req).key).isSome then 17
      else if prism.Full then 7
      else 0
  | req, prism => if (prism.lookup req.key).isSome then 0 else 2

/-- The datagram's own status field already names what this table makes of its request,
or `EINVAL` when the request is truncated.
-/
def StatusForetold (prism : PrismTable) (f : Frame) : Prop :=
  match decodeReq f (sizeofEth + sizeofIp + sizeofUdp) with
  | some req => prbStatus f = req.dueStatus prism
  | none => prbStatus f = 22

/-- The result of an answered datagram: that of executing its request, or `EINVAL`. -/
theorem Answers.handlerResult {conf : Config} {st : SwitchState} {md : XdpMd}
    (h : Answers conf st md)
    : handlerResult st md
      = some
          (match decodeReq md.frame (sizeofEth + sizeofIp + sizeofUdp) with
          | some req => (req.execute st.prism).2
          | none => -einval) := by
  obtain ⟨-, handled, error, ran, -⟩ := h.handled
  cases decoded : decodeReq md.frame (sizeofEth + sizeofIp + sizeofUdp) with
  | some req =>
      have ran := @configHandleReq_decoded (.atPayload st md) req decoded
      rw [Switch.handlerResult, ran]
      rfl
  | none =>
      rcases @configHandleReq_undecoded (.atPayload st md) decoded with
        unknown | ⟨type, -, truncated⟩
      · rw [unknown] at ran
        contradiction
      · rw [Switch.handlerResult, truncated]
        rfl

/-- The status due is the negated result of executing the request. -/
theorem PswReq.dueStatus_eq (req : PswReq) (prism : PrismTable)
    : req.dueStatus prism = UInt16.ofInt (-(req.execute prism).2) := by
  -- a feasible request is answered with zero, a refused one by what was found under its key
  by_cases feasible : req.Feasible prism
  · rw [feasible.execute.1]
    cases req with
    | add req =>
        have absent : prism.lookup (PswReq.add req).key = none := feasible.1
        have room : ¬ prism.Full := feasible.2
        simp only [dueStatus, absent, room, Option.isSome_none, Bool.false_eq_true, ↓reduceIte]
        rfl
    | delete req | chown req | lock req | unlock req =>
        have present : (prism.lookup _).isSome := feasible
        simp only [dueStatus, present, ↓reduceIte]
        rfl
  · rw [PswReq.execute_refused feasible]
    cases found : prism.lookup req.key with
    | some val =>
        cases req with
        | add req =>
            simp only [dueStatus, found, refusal, Option.isSome_some, ↓reduceIte]
            rfl
        | delete req | chown req | lock req | unlock req =>
            exact absurd (by simp [Feasible, found]) feasible
    | none =>
        cases req with
        | add req =>
            -- without a rule an addition is refused by a full table only
            have full : prism.Full := by
              by_contra room
              exact feasible ⟨found, room⟩
            simp only [dueStatus, found, full, refusal, Option.isSome_none, Bool.false_eq_true,
              ↓reduceIte]
            rfl
        | delete req | chown req | lock req | unlock req =>
            simp only [dueStatus, found, refusal, Option.isSome_none, Bool.false_eq_true,
              ↓reduceIte]
            rfl

/-- The reply's status is the negated result of the handler that ran exactly when the
request's own status field foretold it.
-/
theorem reply_status_truthful_iff {conf : Config} {st : SwitchState} {md : XdpMd}
    (answered : Answers conf st md)
    : ∃ result,
        handlerResult st md = some result
        ∧ (prbStatus (valeLookup conf st md).frame = UInt16.ofInt (-result)
          ↔ StatusForetold st.prism md.frame) := by
  refine ⟨_, answered.handlerResult, ?_⟩
  rw [answered.reply_status, StatusForetold]
  cases decodeReq md.frame (sizeofEth + sizeofIp + sizeofUdp) with
  | some req => simp only [req.dueStatus_eq]
  | none => exact Iff.rfl

/-- A LOCK request for a flow without a rule, as the client library lays it out. -/
def lockUnknown (conf : Config) : XdpMd where
  frame :=
    bareDatagram conf ⟨0x0100000a, 0x3930⟩
      (PswReq.lock { status := 0, peerAddr := 0x0200000a, peerPort := 0x5000 }).store
  ingressIfindex := 1

/-- A LOCK of an unknown rule fails, and its reply does not say so. -/
theorem reply_status_truthful_lockUnknown
    : ∃ result,
        handlerResult .empty (lockUnknown ⟨1, 2⟩) = some result
        ∧ (prbStatus (valeLookup ⟨1, 2⟩ .empty (lockUnknown ⟨1, 2⟩)).frame
            = UInt16.ofInt (-result)
          ↔ StatusForetold SwitchState.empty.prism (lockUnknown ⟨1, 2⟩).frame) :=
  reply_status_truthful_iff ⟨by decide, by decide⟩

/-- The switch answers that request with status 0 although it found no rule to lock. -/
theorem reply_status_lies
    : Answers ⟨1, 2⟩ .empty (lockUnknown ⟨1, 2⟩)
      ∧ handlerResult .empty (lockUnknown ⟨1, 2⟩) = some (-enoent)
      ∧ prbStatus (valeLookup ⟨1, 2⟩ .empty (lockUnknown ⟨1, 2⟩)).frame = 0
      ∧ UInt16.ofInt (- -enoent) ≠ 0 := by
  refine ⟨⟨by decide, by decide⟩, by decide, by decide, by decide⟩

end PrismHTTP.Switch
