import PrismHTTP.Switch.RequestExecution

/-! What the prism logic does to a parsed TCP frame, as one case analysis on two table
lookups, and which bytes of the frame the two rewrites touch.
-/

namespace PrismHTTP.Switch
open ByteLayout

def dstKey (f : Frame) : PrismKey := .ofPeer (ipDst f) (tcpDst f)

def srcKey (f : Frame) : PrismKey := .ofPeer (ipSrc f) (tcpSrc f)

/-- The frame `prism_out_lookup` leaves for an unlocked rule. -/
def outRewrite (f : Frame) (val : PrismValue) : Frame :=
  let ip_csum := csumReplaceAddr (ipCsum f) (ipSrc f) val.virtualAddr
  let tcp_csum := csumReplaceAddr (tcpCsum f) (ipSrc f) val.virtualAddr
  let tcp_csum := csumReplacePort tcp_csum (tcpSrc f) val.virtualPort
  set32 (set16 (set16 (set16 f 24 ip_csum) 50 tcp_csum) 34 val.virtualPort) 26 val.virtualAddr

/-- The frame `prism_in_lookup` leaves for an unlocked rule. -/
def inRewrite (f : Frame) (val : PrismValue) : Frame :=
  let ip_csum := csumReplaceAddr (ipCsum f) (ipDst f) val.ownerAddr
  let tcp_csum := csumReplaceAddr (tcpCsum f) (ipDst f) val.ownerAddr
  let tcp_csum := csumReplacePort tcp_csum (tcpDst f) val.ownerPort
  set16
    (set32 (set16 (set16 (setRun f 0 val.ownerMac) 24 ip_csum) 50 tcp_csum) 30 val.ownerAddr)
    36 val.ownerPort

/-- Without a rule for its destination a segment is left alone. -/
theorem prismOutLookup_none {ctx : PacketCtx}
    (h : ctx.prism.lookup (dstKey ctx.frame) = none)
    : prismOutLookup ctx = ctx := by
  unfold dstKey at h
  simp only [prismOutLookup, h]

/-- A rule for the destination drops the segment while it is locked and rewrites its source
otherwise.
-/
theorem prismOutLookup_some {ctx : PacketCtx} {val : PrismValue}
    (h : ctx.prism.lookup (dstKey ctx.frame) = some val)
    : prismOutLookup ctx
      = if val.locked ≠ 0 then
          { ctx with abort := true }
        else
          { ctx with frame := outRewrite ctx.frame val, matched := true } := by
  unfold dstKey at h
  simp only [prismOutLookup, h]
  rfl

/-- Without a rule for its source a segment is left alone. -/
theorem prismInLookup_none {ctx : PacketCtx}
    (h : ctx.prism.lookup (srcKey ctx.frame) = none)
    : prismInLookup ctx = ctx := by
  unfold srcKey at h
  simp only [prismInLookup, h]

/-- A rule for the source drops the segment while it is locked and rewrites its destination
otherwise.
-/
theorem prismInLookup_some {ctx : PacketCtx} {val : PrismValue}
    (h : ctx.prism.lookup (srcKey ctx.frame) = some val)
    : prismInLookup ctx
      = if val.locked = 1 then
          { ctx with abort := true }
        else
          { ctx with frame := inRewrite ctx.frame val, matched := true } := by
  unfold srcKey at h
  simp only [prismInLookup, h]
  rfl

/-- A TCP frame is decided by the rule for its destination or, without one, by the rule for
its source. The first lookup treats `locked` as a truth value, the second compares it to 1.
-/
theorem valeLookupParse_rules {md : XdpMd} (tcp : ParsesTcp md.frame) (conf : Config)
    (st : SwitchState)
    : valeLookupParse conf st md
      = match st.prism.lookup (dstKey md.frame) with
        | some val =>
            if val.locked ≠ 0 then
              .ret valeBpfDrop { PacketCtx.pastTcp st md with abort := true }
            else
              .gotoL2
                { PacketCtx.pastTcp st md with
                    frame := outRewrite md.frame val, matched := true }
        | none =>
            match st.prism.lookup (srcKey md.frame) with
            | some val =>
                if val.locked = 1 then
                  .ret valeBpfDrop { PacketCtx.pastTcp st md with abort := true }
                else
                  .gotoL2
                    { PacketCtx.pastTcp st md with
                        frame := inRewrite md.frame val, matched := true }
            | none => .gotoL2 (.pastTcp st md) := by
  rw [valeLookupParse_tcp tcp, prismLookup]
  -- the rule of the destination goes first and any lock bit but zero drops
  cases out : st.prism.lookup (dstKey md.frame) with
  | some val =>
      rw [@prismOutLookup_some (.pastTcp st md) val out]
      by_cases locked : val.locked = 0
      · simp [locked, PacketCtx.pastTcp, PacketCtx.init]
      · simp [locked, PacketCtx.pastTcp, PacketCtx.init]
  | none =>
      rw [@prismOutLookup_none (.pastTcp st md) out]
      simp only [show (PacketCtx.pastTcp st md).matched = false from rfl,
        show (PacketCtx.pastTcp st md).abort = false from rfl, Bool.false_eq_true, ↓reduceIte]
      -- the rule of the source drops only on the value one
      cases into : st.prism.lookup (srcKey md.frame) with
      | some val =>
          rw [@prismInLookup_some (.pastTcp st md) val into]
          by_cases locked : val.locked = 1
          · simp [locked, PacketCtx.pastTcp, PacketCtx.init]
          · simp [locked, PacketCtx.pastTcp, PacketCtx.init]
      | none =>
          rw [@prismInLookup_none (.pastTcp st md) into]
          rfl

/-- Only bytes in the given ranges, each an offset and a length, may differ. -/
def SameOutside (ranges : List (Nat × Nat)) (f g : Frame) : Prop :=
  g.length = f.length
  ∧ ∀ i, (∀ r ∈ ranges, i < r.1 ∨ r.1 + r.2 ≤ i) → get8 g i = get8 f i

/-- A frame is the same as itself. -/
theorem SameOutside.refl (ranges : List (Nat × Nat)) (f : Frame) : SameOutside ranges f f :=
  ⟨rfl, fun _ _ => rfl⟩

/-- Writing one of the fields leaves everything outside of them. -/
theorem SameOutside.write {ranges : List (Nat × Nat)} {f g : Frame}
    (same : SameOutside ranges f g) {i : Nat} {vs : Bytes} (listed : (i, vs.length) ∈ ranges)
    : SameOutside ranges f (write g i vs) := by
  refine ⟨(length_write g i vs).trans same.1, fun j outside => ?_⟩
  rw [get8_write_outside (outside _ listed)]
  exact same.2 j outside

/-- The source fields and the two checksums. -/
def outFields : List (Nat × Nat) := [(24, 2), (50, 2), (34, 2), (26, 4)]

/-- The destination fields, hardware address included, and the two checksums. -/
def inFields : List (Nat × Nat) := [(0, 6), (24, 2), (50, 2), (30, 4), (36, 2)]

/-- Rewriting the source changes its address, its port and the checksums only. -/
theorem outRewrite_same (f : Frame) (val : PrismValue)
    : SameOutside outFields f (outRewrite f val) := by
  unfold outRewrite set32 set16
  refine SameOutside.write (SameOutside.write (SameOutside.write (SameOutside.write
    (.refl _ f) ?_) ?_) ?_) ?_
  all_goals simp [outFields]

/-- Rewriting the destination changes its address, its port and the checksums only. -/
theorem inRewrite_same (f : Frame) (val : PrismValue)
    : SameOutside inFields f (inRewrite f val) := by
  unfold inRewrite set32 set16 setRun
  refine SameOutside.write (SameOutside.write (SameOutside.write (SameOutside.write
    (SameOutside.write (.refl _ f) ?_) ?_) ?_) ?_) ?_
  all_goals simp [inFields]

/-- The rewritten source is the rule's virtual endpoint. -/
theorem outRewrite_src {f : Frame} (len : 54 ≤ f.length) (val : PrismValue)
    : ipSrc (outRewrite f val) = val.virtualAddr
      ∧ tcpSrc (outRewrite f val) = val.virtualPort := by
  refine ⟨?_, ?_⟩
  · exact get32_set32_self _ (by simp; omega)
  · rw [tcpSrc, outRewrite, set32, get16_write_outside (by simp)]
    exact get16_set16_self _ (by simp; omega)

/-- The rewritten destination is the rule's owner. -/
theorem inRewrite_dst {f : Frame} (len : 54 ≤ f.length) (val : PrismValue)
    : ethDst (inRewrite f val) = val.ownerMac
      ∧ ipDst (inRewrite f val) = val.ownerAddr
      ∧ tcpDst (inRewrite f val) = val.ownerPort := by
  refine ⟨?_, ?_, ?_⟩
  · rw [ethDst, inRewrite, set16, getRun_write_outside (by simp), set32,
      getRun_write_outside (by simp), set16, getRun_write_outside (by simp), set16,
      getRun_write_outside (by simp)]
    exact getRun_setRun_self _ (by omega)
  · rw [ipDst, inRewrite, set16, get32_write_outside (by simp)]
    exact get32_set32_self _ (by simp; omega)
  · exact get16_set16_self _ (by simp; omega)

/-- The parser's own fields survive when no listed range touches them. -/
theorem SameOutside.parsesTcp {ranges : List (Nat × Nat)} {f g : Frame}
    (same : SameOutside ranges f g) (clear : ∀ r ∈ ranges, r.1 + r.2 ≤ 12 ∨ 24 ≤ r.1)
    (tcp : ParsesTcp f)
    : ParsesTcp g := by
  obtain ⟨len, type, hl, proto⟩ := tcp
  have kept {i : Nat} (low : 12 ≤ i) (high : i < 24) : get8 g i = get8 f i := by
    apply same.2
    intro r listed
    have apart := clear r listed
    omega
  refine ⟨same.1 ▸ len, ?_, ?_, ?_⟩
  · rw [ethType, get16_congr (kept (by decide) (by decide)) (kept (by decide) (by decide))]
    exact type
  · rw [ipHl, kept (by decide) (by decide)]
    exact hl
  · rw [ipProto, kept (by decide) (by decide)]
    exact proto

/-- A TCP frame leaves the switch as it came or rewritten once. -/
theorem valeLookup_frame {md : XdpMd} (tcp : ParsesTcp md.frame) (conf : Config)
    (st : SwitchState)
    : (valeLookup conf st md).frame = md.frame
      ∨ (∃ val, (valeLookup conf st md).frame = outRewrite md.frame val)
      ∨ ∃ val, (valeLookup conf st md).frame = inRewrite md.frame val := by
  rw [valeLookup, valeLookupParse_rules tcp]
  cases st.prism.lookup (dstKey md.frame) with
  | some val =>
      by_cases locked : val.locked = 0
      · simp only [locked, ne_eq, not_true_eq_false, ↓reduceIte, PacketCtx.verdict,
          l2Lookup_frame]
        exact Or.inr (Or.inl ⟨val, rfl⟩)
      · simp only [ne_eq, locked, not_false_eq_true, ↓reduceIte, PacketCtx.verdict]
        exact Or.inl rfl
  | none =>
      cases st.prism.lookup (srcKey md.frame) with
      | some val =>
          by_cases locked : val.locked = 1
          · simp only [locked, ↓reduceIte, PacketCtx.verdict]
            exact Or.inl rfl
          · simp only [locked, ↓reduceIte, PacketCtx.verdict, l2Lookup_frame]
            exact Or.inr (Or.inr ⟨val, rfl⟩)
      | none =>
          simp only [PacketCtx.verdict, l2Lookup_frame]
          exact Or.inl rfl

/-- A TCP segment is still one when the switch has seen it. -/
theorem ParsesTcp.valeLookup {md : XdpMd} (tcp : ParsesTcp md.frame) (conf : Config)
    (st : SwitchState)
    : ParsesTcp (Switch.valeLookup conf st md).frame := by
  rcases valeLookup_frame tcp conf st with same | ⟨val, rewritten⟩ | ⟨val, rewritten⟩
  · rw [same]
    exact tcp
  · rw [rewritten]
    exact (outRewrite_same _ val).parsesTcp (by simp [outFields]) tcp
  · rw [rewritten]
    exact (inRewrite_same _ val).parsesTcp (by simp [inFields]) tcp

/-- An unlocked rule for the peer 10.0.0.2:8080, as a server registers it. -/
def sampleAdd : PswAddReq where
  status := 0
  peerAddr := 0x0200000a
  peerPort := 0x901f
  virtualAddr := 0x0100000a
  virtualPort := 0x5000
  ownerAddr := 0x0300000a
  ownerPort := 0x9a1f
  ownerMac := #v[2, 0, 0, 0, 0, 3]
  lock := 0

/-- The tables with that rule. -/
def sampleRules : SwitchState := ⟨((PswReq.add sampleAdd).execute .empty).1, .empty⟩

/-- A two-byte segment from that peer to 10.0.0.1:80. -/
def sampleSegment : Frame :=
  [2, 0, 0, 0, 0, 9, 2, 0, 0, 0, 0, 1, 8, 0,
    69, 0, 0, 42, 0, 1, 0, 0, 64, 6, 102, 203, 10, 0, 0, 2, 10, 0, 0, 1,
    31, 144, 0, 80, 0, 0, 0, 1, 0, 0, 0, 2, 80, 16, 1, 0, 18, 132, 0, 0,
    104, 105]

example : dstKey sampleSegment ≠ srcKey sampleSegment
    ∧ srcKey sampleSegment = (PswReq.add sampleAdd).key := by
  decide

end PrismHTTP.Switch
