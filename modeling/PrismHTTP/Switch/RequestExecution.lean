import PrismHTTP.Switch.Lookup

/-! Every frame either carries one complete control request, executed on the table of
rules, or leaves that table alone. Handlers are related to `PswReq.execute` once here, and
later results about rules cite `valeLookup_prism` instead of unfolding the parser.
-/

namespace PrismHTTP.Switch
open ByteLayout

/-- A UDP datagram to the configuration address, with a 20-byte IP header. -/
def ParsesConfig (conf : Config) (f : Frame) : Prop :=
  sizeofEth + sizeofIp + sizeofUdp ≤ f.length
  ∧ bpfNtohs (ethType f) = ethPIp
  ∧ ipHl f = 5
  ∧ ipProto f = ipprotoUdp
  ∧ ipDst f = conf.addr
  ∧ udpDst f = conf.port

/-- A TCP frame as the parser accepts it: IPv4, a 20-byte IP header, a whole TCP header. -/
def ParsesTcp (f : Frame) : Prop :=
  sizeofEth + sizeofIp + sizeofTcp ≤ f.length
  ∧ bpfNtohs (ethType f) = ethPIp
  ∧ ipHl f = 5
  ∧ ipProto f = ipprotoTcp

instance (conf : Config) (f : Frame) : Decidable (ParsesConfig conf f) :=
  inferInstanceAs (Decidable (_ ∧ _))

instance (f : Frame) : Decidable (ParsesTcp f) :=
  inferInstanceAs (Decidable (_ ∧ _))

/-- The context a configuration datagram reaches `configure_switch` with. -/
def PacketCtx.atPayload (st : SwitchState) (md : XdpMd) : PacketCtx :=
  { PacketCtx.init st md with cur := sizeofEth + sizeofIp + sizeofUdp }

/-- The context a TCP frame reaches the prism logic with. -/
def PacketCtx.pastTcp (st : SwitchState) (md : XdpMd) : PacketCtx :=
  { PacketCtx.init st md with cur := sizeofEth + sizeofIp + sizeofTcp }

/-- A control request is parsed up to its payload and handed to `config_lookup`. -/
theorem valeLookupParse_config {conf : Config} {md : XdpMd}
    (h : ParsesConfig conf md.frame) (st : SwitchState)
    : valeLookupParse conf st md = configLookup (.atPayload st md) := by
  obtain ⟨len, type, hl, proto, addr, port⟩ := h
  simp only [sizeofEth, sizeofIp, sizeofUdp] at len
  simp [valeLookupParse, PacketCtx.init, PacketCtx.atPayload, sizeofEth, sizeofIp,
    sizeofUdp, type, hl, proto, addr, port, show 14 ≤ md.frame.length by omega,
    show 34 ≤ md.frame.length by omega, show 42 ≤ md.frame.length by omega]

/-- A TCP segment is parsed up to its ports and handed to `prism_lookup`. -/
theorem valeLookupParse_tcp {md : XdpMd} (h : ParsesTcp md.frame) (conf : Config)
    (st : SwitchState)
    : valeLookupParse conf st md = prismLookup (.pastTcp st md) := by
  obtain ⟨len, type, hl, proto⟩ := h
  simp only [sizeofEth, sizeofIp, sizeofTcp] at len
  have notUdp : ipprotoTcp ≠ ipprotoUdp := by decide
  simp [valeLookupParse, PacketCtx.init, PacketCtx.pastTcp, sizeofEth, sizeofIp,
    sizeofTcp, type, hl, proto, notUdp, show 14 ≤ md.frame.length by omega,
    show 34 ≤ md.frame.length by omega, show 54 ≤ md.frame.length by omega]

/-- Any other frame reaches the learning switch untouched, or is too short and dropped. -/
theorem valeLookupParse_other {conf : Config} {md : XdpMd}
    (notConfig : ¬ ParsesConfig conf md.frame) (notTcp : ¬ ParsesTcp md.frame)
    (st : SwitchState)
    : (∃ cur, valeLookupParse conf st md = .gotoL2 { PacketCtx.init st md with cur })
      ∨ (md.frame.length < sizeofEth
        ∧ valeLookupParse conf st md = .ret valeBpfDrop (.init st md)) := by
  simp only [ParsesConfig, ParsesTcp, sizeofEth, sizeofIp, sizeofUdp, sizeofTcp]
    at notConfig notTcp
  simp only [valeLookupParse, sizeofEth, sizeofIp, sizeofUdp, sizeofTcp]
  simp only [show (PacketCtx.init st md).cur = 0 from rfl, Nat.zero_add, Nat.reduceAdd,
    ite_not]
  split
  case isFalse short => exact Or.inr ⟨by omega, rfl⟩
  -- from here every early exit leaves the packet as it came, with the cursor where it stopped
  refine Or.inl ?_
  split
  case isFalse => exact ⟨0, rfl⟩
  split
  case isFalse => exact ⟨14, rfl⟩
  split
  case isFalse => exact ⟨14, rfl⟩
  split
  case isTrue udp =>
    split
    case isFalse => exact ⟨34, rfl⟩
    split
    case isTrue => exact ⟨42, rfl⟩
    case isFalse here =>
      simp only [not_or, not_not] at here
      exact absurd ⟨by assumption, by assumption, by assumption, udp, here.1, here.2⟩ notConfig
  case isFalse =>
    split
    case isFalse => exact ⟨34, rfl⟩
    split
    case isFalse => exact ⟨34, rfl⟩
    exact absurd ⟨by assumption, by assumption, by assumption, by assumption⟩ notTcp

/-- A handler given a complete request makes exactly the request's table change and
returns its result. Witness: the five handlers, each by the rule it looks up.
-/
theorem PswRequests.handle_complete {ctx : PacketCtx} (type : PswRequests)
    (complete : ctx.cur + type.sizeof ≤ ctx.frame.length)
    : type.handle ctx
      = ({ ctx with prism := ((type.load ctx.frame ctx.cur).execute ctx.prism).1 },
          ((type.load ctx.frame ctx.cur).execute ctx.prism).2) := by
  cases type with
  | add =>
      simp only [sizeof] at complete
      simp only [handle, configHandleAddReq, complete, not_true_eq_false, ↓reduceIte,
        load, PswReq.execute, PswReq.key]
      cases ctx.prism.lookup _ <;> rfl
  | delete =>
      simp only [sizeof] at complete
      simp only [handle, configHandleDeleteReq, complete, not_true_eq_false, ↓reduceIte,
        load, PswReq.execute, PswReq.key]
      cases found : ctx.prism.lookup _ with
      | none => simp [PswReq.onRule, mapDelete, BoundedMap.delete_absent found]
      | some val => rfl
  | chown =>
      simp only [sizeof] at complete
      simp only [handle, configHandleChownReq, complete, not_true_eq_false, ↓reduceIte,
        load, PswReq.execute, PswReq.key]
      cases ctx.prism.lookup _ with
      | none => rfl
      | some val =>
          simp only [PswReq.onRule]
          split <;> rfl
  | lock =>
      simp only [sizeof] at complete
      simp only [handle, configHandleLockReq, complete, not_true_eq_false, ↓reduceIte,
        load, PswReq.execute, PswReq.key]
      cases ctx.prism.lookup _ <;> rfl
  | unlock =>
      simp only [sizeof] at complete
      simp only [handle, configHandleUnlockReq, complete, not_true_eq_false, ↓reduceIte,
        load, PswReq.execute, PswReq.key]
      cases ctx.prism.lookup _ <;> rfl

/-- The handlers that also raise the abort flag when a request is cut short. -/
def PswRequests.abortsTruncated : PswRequests → Bool
  | .add | .delete => false
  | .chown | .lock | .unlock => true

/-- A truncated request is refused with `EINVAL` and changes nothing but the abort flag,
which ADD and DELETE leave as it was.
-/
theorem PswRequests.handle_truncated {ctx : PacketCtx} (type : PswRequests)
    (truncated : ¬ ctx.cur + type.sizeof ≤ ctx.frame.length)
    : type.handle ctx
      = ({ ctx with abort := type.abortsTruncated || ctx.abort }, -einval) := by
  cases type <;> simp only [sizeof] at truncated <;>
    simp [handle, configHandleAddReq, configHandleDeleteReq, configHandleChownReq,
      configHandleLockReq, configHandleUnlockReq, abortsTruncated, truncated]

/-- A decoded request is executed on the table, by cases on its type. -/
theorem configHandleReq_decoded {ctx : PacketCtx} {req : PswReq}
    (h : decodeReq ctx.frame ctx.cur = some req)
    : configHandleReq ctx
      = some
          ({ ctx with prism := (req.execute ctx.prism).1 }, (req.execute ctx.prism).2) := by
  obtain ⟨type, known, h⟩ := Option.bind_eq_some_iff.mp h
  split at h
  case isFalse => contradiction
  case isTrue complete =>
    obtain rfl := Option.some.inj h
    simp [configHandleReq, known, type.handle_complete complete]

/-- Without a complete request the dispatcher reaches no handler or a truncated one. -/
theorem configHandleReq_undecoded {ctx : PacketCtx}
    (h : decodeReq ctx.frame ctx.cur = none)
    : configHandleReq ctx = none
      ∨ ∃ type,
          PswRequests.ofByte (get8 ctx.frame ctx.cur) = some type
          ∧ configHandleReq ctx
            = some ({ ctx with abort := type.abortsTruncated || ctx.abort }, -einval) := by
  cases known : PswRequests.ofByte (get8 ctx.frame ctx.cur) with
  | none => exact Or.inl (by simp [configHandleReq, known])
  | some type =>
      refine Or.inr ⟨type, rfl, ?_⟩
      have truncated : ¬ ctx.cur + type.sizeof ≤ ctx.frame.length := by
        intro complete
        simp [decodeReq, known, complete] at h
      simp [configHandleReq, known, type.handle_truncated truncated]

/-- Preparing the reply changes no rule. -/
@[simp] theorem configPrepareResponse_prism (ctx : PacketCtx) (status : Int)
    : (configPrepareResponse ctx status).prism = ctx.prism := by
  unfold configPrepareResponse
  split <;> rfl

/-- Preparing the reply changes no learned station. -/
@[simp] theorem configPrepareResponse_l2 (ctx : PacketCtx) (status : Int)
    : (configPrepareResponse ctx status).l2 = ctx.l2 := by
  unfold configPrepareResponse
  split <;> rfl

/-- Preparing the reply does not change the port the frame came from. -/
@[simp] theorem configPrepareResponse_sport (ctx : PacketCtx) (status : Int)
    : (configPrepareResponse ctx status).sport = ctx.sport := by
  unfold configPrepareResponse
  split <;> rfl

/-- Preparing the reply drops no request whose result is not positive. -/
theorem configPrepareResponse_abort {ctx : PacketCtx} {status : Int} (h : status ≤ 0)
    : (configPrepareResponse ctx status).abort = ctx.abort := by
  simp [configPrepareResponse, not_lt.mpr h]

/-- Every request has the part that all requests share. -/
theorem PswRequests.base_le_sizeof (type : PswRequests)
    : sizeofPswReqBase ≤ type.sizeof := by
  cases type <;> decide

/-- A decoded request is at least as long as the base structure the dispatcher checks. -/
theorem decodeReq_base {f : Bytes} {cur : Nat} {req : PswReq}
    (h : decodeReq f cur = some req)
    : cur + sizeofPswReqBase ≤ f.length := by
  obtain ⟨type, _, h⟩ := Option.bind_eq_some_iff.mp h
  split at h
  case isFalse => contradiction
  case isTrue complete =>
    have base := type.base_le_sizeof
    omega

/-- The dispatcher executes the request at its cursor, or leaves the rules alone. -/
theorem configureSwitch_prism (ctx : PacketCtx)
    : (configureSwitch ctx).prism
      = match decodeReq ctx.frame ctx.cur with
        | some req => (req.execute ctx.prism).1
        | none => ctx.prism := by
  unfold configureSwitch
  split
  case isTrue short =>
    cases decoded : decodeReq ctx.frame ctx.cur with
    | none => rfl
    | some req => exact absurd (decodeReq_base decoded) short
  case isFalse =>
    cases decoded : decodeReq ctx.frame ctx.cur with
    | some req => simp [configHandleReq_decoded decoded]
    | none =>
        rcases configHandleReq_undecoded decoded with unknown | ⟨type, _, ran⟩
        · simp [unknown]
        · simp [ran]

/-- The complete control request a frame carries to this switch. -/
def configReq (conf : Config) (f : Frame) : Option PswReq :=
  if ParsesConfig conf f then decodeReq f (sizeofEth + sizeofIp + sizeofUdp) else none

/-- Learning changes no rule. -/
@[simp] theorem l2Lookup_prism (ctx : PacketCtx) : (l2Lookup ctx).prism = ctx.prism := by
  unfold l2Lookup
  dsimp only
  repeat' split
  all_goals rfl

/-- Learning changes nothing of the frame. -/
@[simp] theorem l2Lookup_frame (ctx : PacketCtx) : (l2Lookup ctx).frame = ctx.frame := by
  unfold l2Lookup
  dsimp only
  repeat' split
  all_goals rfl

/-- The lookup for the destination changes no rule. -/
@[simp] theorem prismOutLookup_prism (ctx : PacketCtx)
    : (prismOutLookup ctx).prism = ctx.prism := by
  unfold prismOutLookup
  dsimp only
  repeat' split
  all_goals rfl

/-- The lookup for the source changes no rule. -/
@[simp] theorem prismInLookup_prism (ctx : PacketCtx)
    : (prismInLookup ctx).prism = ctx.prism := by
  unfold prismInLookup
  dsimp only
  repeat' split
  all_goals rfl

def Exit.ctx : Exit → PacketCtx
  | .gotoL2 ctx => ctx
  | .ret _ ctx => ctx

/-- Looking up a segment changes no rule. -/
theorem prismLookup_prism (ctx : PacketCtx) : (prismLookup ctx).ctx.prism = ctx.prism := by
  unfold prismLookup
  dsimp only
  repeat' split
  all_goals simp [Exit.ctx]

/-- `config_lookup` leaves what `configure_switch` does. -/
theorem configLookup_ctx (ctx : PacketCtx) : (configLookup ctx).ctx = configureSwitch ctx := by
  unfold configLookup
  dsimp only
  split <;> rfl

/-- Learning and the verdict leave the rules as parsing leaves them. -/
theorem valeLookup_state_prism (conf : Config) (st : SwitchState) (md : XdpMd)
    : (valeLookup conf st md).state.prism = (valeLookupParse conf st md).ctx.prism := by
  unfold valeLookup
  cases valeLookupParse conf st md <;> simp [PacketCtx.verdict, Exit.ctx]

/-- Each frame executes the control request it carries, and any other frame leaves the
rules as they were.
-/
theorem valeLookup_prism (conf : Config) (st : SwitchState) (md : XdpMd)
    : (valeLookup conf st md).state.prism
      = match configReq conf md.frame with
        | some req => (req.execute st.prism).1
        | none => st.prism := by
  rw [valeLookup_state_prism]
  by_cases config : ParsesConfig conf md.frame
  · rw [valeLookupParse_config config, configLookup_ctx, configureSwitch_prism]
    simp only [configReq, config, ↓reduceIte]
    rfl
  · simp only [configReq, config, ↓reduceIte]
    by_cases tcp : ParsesTcp md.frame
    · rw [valeLookupParse_tcp tcp, prismLookup_prism]
      rfl
    · rcases valeLookupParse_other config tcp st with ⟨cur, jumps⟩ | ⟨_, drops⟩
      · rw [jumps]
        rfl
      · rw [drops]
        rfl

end PrismHTTP.Switch
