import PrismHTTP.Switch.Checksums
import PrismHTTP.Switch.ReplyStatus

/-! The UDP checksum of a reply.
The reply builder takes the request's status out of the checksum and puts the negated result
in, but stores neither. The checksum survives exactly when the two count the same.
-/

namespace PrismHTTP.Switch
open ByteLayout OnesComplement

/-- The length field of the UDP header, in network byte order on the wire. -/
def udpLen (f : Frame) : Nat := 256 * (get8 f 38).toNat + (get8 f 39).toNat

def udpDatagram (f : Frame) : Bytes := slice f 34 (udpLen f)

def udpPseudoHeader (f : Frame) : Bytes :=
  bytes32 (ipSrc f)
  ++ (bytes32 (ipDst f)
      ++ [0, ipProto f, UInt8.ofNat (udpLen f / 256), UInt8.ofNat (udpLen f)])

/-- A receiver accepts the checksum of a datagram that is long enough for its own header. -/
def UdpVerifies (f : Frame) : Prop :=
  sizeofUdp ≤ udpLen f ∧ Verifies (udpPseudoHeader f ++ udpDatagram f)

instance (f : Frame) : Decidable (UdpVerifies f) := inferInstanceAs (Decidable (_ ∧ _))

def udpTotal (f : Frame) : ZMod 65535 := total (udpPseudoHeader f ++ udpDatagram f)

/-- The total of a UDP datagram is that of a transport packet as long as its header says. -/
theorem udpTotal_eq (f : Frame) : udpTotal f = transportTotal f (udpLen f) := rfl

/-- Writing elsewhere leaves the length of the datagram. -/
theorem udpLen_write {f : Frame} {i : Nat} {vs : Bytes} (h : i + vs.length ≤ 38 ∨ 40 ≤ i)
    : udpLen (write f i vs) = udpLen f := by
  rw [udpLen, get8_write_outside (by omega), get8_write_outside (by omega), udpLen]

/-- The headers in place, and the length field at least that of a UDP header. -/
def HoldsUdpHeader (f : Frame) : Prop := 42 ≤ f.length ∧ 8 ≤ udpLen f

/-- A frame holds its UDP header still after a write that leaves the UDP length. -/
theorem HoldsUdpHeader.write {f : Frame} (held : HoldsUdpHeader f) {i : Nat} {vs : Bytes}
    (h : i + vs.length ≤ 38 ∨ 40 ≤ i)
    : HoldsUdpHeader (write f i vs) := by
  refine ⟨?_, ?_⟩
  · rw [length_write]
    exact held.1
  · rw [udpLen_write h]
    exact held.2

section
variable {f : Frame} (held : HoldsUdpHeader f)
include held

/-- Setting a port or the checksum changes the total of the datagram by the difference of the
values.
-/
theorem udpTotal_set16 {i : Nat} (at_ : i = 34 ∨ i = 36 ∨ i = 40) (v : UInt16)
    : udpTotal (set16 f i v)
      = udpTotal f + 256 * ((v.toNat : ZMod 65535) - (get16 f i).toNat) := by
  obtain ⟨long, header⟩ := held
  rw [udpTotal_eq, set16, udpLen_write (by simp; omega), ← set16,
    transportTotal_set16 (by omega) (by omega) (by omega) (by omega), udpTotal_eq]

/-- Setting an IP address changes the total of the datagram by the difference of the values. -/
theorem udpTotal_set32 {i : Nat} (at_ : i = 26 ∨ i = 30) (v : UInt32)
    : udpTotal (set32 f i v)
      = udpTotal f + 256 * ((v.toNat : ZMod 65535) - (get32 f i).toNat) := by
  have long := held.1
  rw [udpTotal_eq, set32, udpLen_write (by simp; omega), ← set32,
    transportTotal_set32 at_ (by omega), udpTotal_eq]

end

/-! ## The three swaps and the checksum -/

def swapMacs (f : Frame) : Frame := setRun (setRun f 6 (ethDst f)) 0 (ethSrc f)

def swapAddrs (f : Frame) : Frame := set32 (set32 f 26 (ipDst f)) 30 (ipSrc f)

def swapPorts (f : Frame) : Frame := set16 (set16 f 34 (udpDst f)) 36 (udpSrc f)

/-- The checksum stored for a result, when the frame's status is `prbStatus f`. -/
def replyCsum (f : Frame) (status : Int) : UInt16 :=
  csum16Add (csum16Sub (udpCsum f) (notPort (prbStatus f)))
    (notPort (UInt16.ofInt (-status)))

/-- The reply is the request with its endpoints swapped and the checksum replaced. -/
theorem configPrepareResponse_frame {ctx : PacketCtx} {status : Int} (answered : status ≤ 0)
    : (configPrepareResponse ctx status).frame
      = set16 (swapPorts (swapAddrs (swapMacs ctx.frame))) 40
          (replyCsum (swapPorts (swapAddrs (swapMacs ctx.frame))) status) := by
  simp only [configPrepareResponse, if_neg (not_lt.mpr answered), swapMacs, swapAddrs, swapPorts,
    replyCsum, notPort]

/-- What a swap keeps: the header fields a checksum depends on and both totals. -/
structure KeepsTotals (f g : Frame) : Prop where
  held : HoldsUdpHeader g
  hl : ipHl g = ipHl f
  proto : ipProto g = ipProto f
  status : prbStatus g = prbStatus f
  ip : ipTotal g = ipTotal f
  udp : udpTotal g = udpTotal f

/-- Two changes that keep the totals keep them together. -/
theorem KeepsTotals.trans {f g h : Frame} (first : KeepsTotals f g) (second : KeepsTotals g h)
    : KeepsTotals f h where
  held := second.held
  hl := second.hl.trans first.hl
  proto := second.proto.trans first.proto
  status := second.status.trans first.status
  ip := second.ip.trans first.ip
  udp := second.udp.trans first.udp

section
variable {f : Frame} (held : HoldsUdpHeader f)
include held

/-- Swapping the MAC addresses changes no total. -/
theorem keepsTotals_swapMacs : KeepsTotals f (swapMacs f) := by
  have once {g : Frame} (held : HoldsUdpHeader g) {i : Nat} (front : i + 6 ≤ 12) (mac : Mac)
      : KeepsTotals g (setRun g i mac) := by
    have size : mac.toList.length = 6 := mac.length_toList
    rw [setRun]
    refine ⟨held.write (by omega), ?_, ?_, ?_, ?_, ?_⟩
    · rw [ipHl, get8_write_outside (by omega), ipHl]
    · rw [ipProto, get8_write_outside (by omega), ipProto]
    · rw [prbStatus, get16_write_outside (by omega), prbStatus]
    · exact ipTotal_write_outside (by omega)
    · rw [udpTotal_eq, udpLen_write (by omega), udpTotal_eq, transportTotal_eq, transportTotal_eq,
        slice_write_outside (by omega), ipSrc, ipDst, ipProto,
        get32_write_outside (by omega), get32_write_outside (by omega),
        get8_write_outside (by omega), ipSrc, ipDst, ipProto]
  have first := once held (show 6 + 6 ≤ 12 by decide) (ethDst f)
  exact first.trans (once first.held (show 0 + 6 ≤ 12 by decide) (ethSrc f))

/-- Each address leaves the total at one place and enters it at the other. -/
theorem keepsTotals_swapAddrs : KeepsTotals f (swapAddrs f) := by
  have long := held.1
  have heldMid : HoldsUdpHeader (set32 f 26 (ipDst f)) := held.write (by simp)
  have second : get32 (set32 f 26 (ipDst f)) 30 = ipDst f := by
    rw [set32, get32_write_outside (by simp), ipDst]
  refine ⟨heldMid.write (by simp), ?_, ?_, ?_, ?_, ?_⟩
  · rw [swapAddrs, ipHl, set32, get8_write_outside (by simp), set32,
      get8_write_outside (by simp), ipHl]
  · rw [swapAddrs, ipProto, set32, get8_write_outside (by simp), set32,
      get8_write_outside (by simp), ipProto]
  · rw [swapAddrs, prbStatus, set32, get16_write_outside (by simp), set32,
      get16_write_outside (by simp), prbStatus]
  · rw [swapAddrs, ipTotal_set32 (.inr rfl) (by simp; omega), second,
      ipTotal_set32 (.inl rfl) (by omega), ipSrc]
    ring
  · rw [swapAddrs, udpTotal_set32 heldMid (.inr rfl), second,
      udpTotal_set32 held (.inl rfl), ipSrc]
    ring

/-- Swapping the ports changes no total: what one field gains the other loses. -/
theorem keepsTotals_swapPorts : KeepsTotals f (swapPorts f) := by
  have heldMid : HoldsUdpHeader (set16 f 34 (udpDst f)) := held.write (by simp)
  have second : get16 (set16 f 34 (udpDst f)) 36 = udpDst f := by
    rw [set16, get16_write_outside (by simp), udpDst]
  refine ⟨heldMid.write (by simp), ?_, ?_, ?_, ?_, ?_⟩
  · rw [swapPorts, ipHl, set16, get8_write_outside (by simp), set16,
      get8_write_outside (by simp), ipHl]
  · rw [swapPorts, ipProto, set16, get8_write_outside (by simp), set16,
      get8_write_outside (by simp), ipProto]
  · rw [swapPorts, prbStatus, set16, get16_write_outside (by simp), set16,
      get16_write_outside (by simp), prbStatus]
  · rw [swapPorts, set16, ipTotal_write_outside (by simp), set16,
      ipTotal_write_outside (by simp)]
  · rw [swapPorts, udpTotal_set16 heldMid (by simp), second, udpTotal_set16 held (by simp),
      udpSrc]
    ring

end

/-- Storing the reply's checksum moves the UDP total by the status taken out and the result
put in.
-/
theorem udpTotal_replyCsum {f : Frame} (held : HoldsUdpHeader f) (status : Int)
    : udpTotal (set16 f 40 (replyCsum f status))
      = udpTotal f
        + 256 * ((prbStatus f).toNat - (UInt16.ofInt (-status)).toNat : ZMod 65535) := by
  rw [udpTotal_set16 held (by simp), replyCsum, cast_csum16Add, cast_csum16Sub, notPort_eq,
    notPort_eq, cast_complement, cast_complement, udpCsum]
  ring

/-- Two words count the same when they are equal or the two forms of zero. -/
theorem cast_word_eq_iff (a b : UInt16)
    : (a.toNat : ZMod 65535) = b.toNat
      ↔ a = b ∨ (a = 0xffff ∧ b = 0) ∨ (a = 0 ∧ b = 0xffff) := by
  have left := a.toNat_lt
  have right := b.toNat_lt
  have ones : (0xffff : UInt16).toNat = 65535 := rfl
  have zero : (0 : UInt16).toNat = 0 := rfl
  simp only [ZMod.natCast_eq_natCast_iff, Nat.ModEq, ← UInt16.toNat_inj, ones, zero]
  omega

/-- Modulo 65535 a product with 256 is zero only for zero, since 256 times 256 is one. -/
theorem mul_256_eq_zero_iff (x : ZMod 65535) : 256 * x = 0 ↔ x = 0 := by
  constructor
  · intro zero
    have inverse : (256 * 256 : ZMod 65535) = 1 := by decide
    calc x = 256 * (256 * x) := by rw [← mul_assoc, inverse, one_mul]
      _ = 0 := by rw [zero, mul_zero]
  · rintro rfl
    exact mul_zero _

/-- The datagram's own status field counts the same in the checksum as the status this table
calls for, which also holds of all ones where zero is due.
-/
def StatusCounted (prism : PrismTable) (f : Frame) : Prop :=
  match decodeReq f (sizeofEth + sizeofIp + sizeofUdp) with
  | some req =>
      prbStatus f = req.dueStatus prism ∨ (prbStatus f = 0xffff ∧ req.dueStatus prism = 0)
  | none => prbStatus f = 22

instance (prism : PrismTable) (f : Frame) : Decidable (StatusCounted prism f) := by
  unfold StatusCounted
  cases decodeReq f (sizeofEth + sizeofIp + sizeofUdp) <;> infer_instance

/-- The status due is never all ones. -/
theorem PswReq.dueStatus_ne_ones (req : PswReq) (prism : PrismTable)
    : req.dueStatus prism ≠ 0xffff := by
  cases req <;> simp only [dueStatus] <;> repeat' split
  all_goals decide

/-- The status field counts like the negated result exactly when it foretold it so. -/
theorem Answers.counted_iff {conf : Config} {st : SwitchState} {md : XdpMd} {result : Int}
    (h : Answers conf st md) (ran : Switch.handlerResult st md = some result)
    : ((prbStatus md.frame).toNat - (UInt16.ofInt (-result)).toNat : ZMod 65535) = 0
      ↔ StatusCounted st.prism md.frame := by
  have known := ran.symm.trans h.handlerResult
  rw [sub_eq_zero, cast_word_eq_iff, StatusCounted]
  cases decoded : decodeReq md.frame (sizeofEth + sizeofIp + sizeofUdp) with
  | some req =>
      rw [decoded] at known
      obtain rfl := Option.some.inj known
      have due := req.dueStatus_ne_ones st.prism
      simp only [← req.dueStatus_eq, due, and_false, or_false]
  | none =>
      rw [decoded] at known
      obtain rfl := Option.some.inj known
      have due : UInt16.ofInt (- -einval) = 22 := by decide
      simp only [due]
      simp

section Replies

variable {conf : Config} {st : SwitchState} {md : XdpMd}

/-- The reply's totals: the IP total is the request's, the UDP total moved by the status. -/
theorem Answers.reply_totals (h : Answers conf st md) (header : sizeofUdp ≤ udpLen md.frame)
    : ∃ result,
        Switch.handlerResult st md = some result
        ∧ ipHl (Switch.valeLookup conf st md).frame = ipHl md.frame
        ∧ ipProto (Switch.valeLookup conf st md).frame = ipProto md.frame
        ∧ sizeofUdp ≤ udpLen (Switch.valeLookup conf st md).frame
        ∧ ipTotal (Switch.valeLookup conf st md).frame = ipTotal md.frame
        ∧ udpTotal (Switch.valeLookup conf st md).frame
          = udpTotal md.frame
            + 256 * ((prbStatus md.frame).toNat - (UInt16.ofInt (-result)).toNat
              : ZMod 65535) := by
  obtain ⟨-, handled, result, ran, built⟩ := h.handled
  have same : handled.frame = md.frame := configHandleReq_frame ran
  have answered : result ≤ 0 := by
    by_contra positive
    have live := h.2
    rw [built, configPrepareResponse, if_pos (not_le.mp positive)] at live
    contradiction
  have held : HoldsUdpHeader md.frame := ⟨h.1.1, header⟩
  -- the three swaps leave both totals alone, so only the new checksum counts
  have macs := keepsTotals_swapMacs held
  have addrs := macs.trans (keepsTotals_swapAddrs macs.held)
  have swapped := addrs.trans (keepsTotals_swapPorts addrs.held)
  refine ⟨result, by simp [Switch.handlerResult, ran], ?_⟩
  rw [h.valeLookup, PacketCtx.verdict, built, configPrepareResponse_frame answered, same]
  generalize swapPorts (swapAddrs (swapMacs md.frame)) = f at swapped
  refine ⟨?_, ?_, ?_, ?_, ?_⟩
  · rw [← swapped.hl, ipHl, set16, get8_write_outside (by simp), ipHl]
  · rw [← swapped.proto, ipProto, set16, get8_write_outside (by simp), ipProto]
  · exact (swapped.held.write (by simp)).2
  · rw [set16, ipTotal_write_outside (by simp), swapped.ip]
  · rw [udpTotal_replyCsum swapped.held, swapped.udp, swapped.status]

/-- Neither sum of a UDP datagram can be all zero. -/
theorem nonzero_covered_udp {f : Frame} (hl : ipHl f = 5) (proto : ipProto f = ipprotoUdp)
    : Nonzero (ipHeader f) ∧ Nonzero (udpPseudoHeader f ++ udpDatagram f) := by
  have some_proto : ipProto f ≠ 0 := by
    rw [proto]
    decide
  exact ⟨nonzero_ipHeader hl, nonzero_transportBytes some_proto⟩

/-- A reply to a datagram whose UDP checksum verifies has checksums that verify exactly when
the datagram's status field already counts like the error number of its own reply.
-/
theorem reply_checksums_iff (answered : Answers conf st md) (udp_ok : UdpVerifies md.frame)
    : (UdpVerifies (valeLookup conf st md).frame
        ∧ (IpVerifies md.frame → IpVerifies (valeLookup conf st md).frame))
      ↔ StatusCounted st.prism md.frame := by
  obtain ⟨header, sum⟩ := udp_ok
  obtain ⟨result, ran, hl, proto, long, ip, udp⟩ := answered.reply_totals header
  obtain ⟨-, -, hl5, isUdp, -, -⟩ := answered.1
  obtain ⟨ipSet, udpSet⟩ := nonzero_covered_udp (hl.trans hl5) (proto.trans isUdp)
  have zero : udpTotal md.frame = 0 := ((verifies_iff _).mp sum).2
  rw [zero, zero_add] at udp
  have kept : IpVerifies md.frame → IpVerifies (valeLookup conf st md).frame := fun ok =>
    (verifies_iff _).mpr ⟨ipSet, ip.trans ((verifies_iff _).mp ok).2⟩
  rw [← answered.counted_iff ran, ← mul_256_eq_zero_iff, ← udp]
  constructor
  · rintro ⟨⟨-, verified⟩, -⟩
    exact ((verifies_iff _).mp verified).2
  · intro vanishes
    exact ⟨⟨long, (verifies_iff _).mpr ⟨udpSet, vanishes⟩⟩, kept⟩

end Replies

/-- A LOCK request for a flow without a rule, with its lengths and checksums filled in. -/
def sealedLock (status udp_csum : UInt16) : XdpMd where
  frame :=
    let bare :=
      bareDatagram ⟨1, 2⟩ ⟨0x0100000a, 0x3930⟩
        (PswReq.lock { status := status, peerAddr := 0x0200000a, peerPort := 0x5000 }).store
    set16 (set16 (set16 (set16 bare 16 0x2500) 24 0xc8af) 38 0x1100) 40 udp_csum
  ingressIfindex := 1

/-- Sent with the status that is due, it is answered with checksums that verify. -/
theorem reply_checksums_sealedLock
    : UdpVerifies (valeLookup ⟨1, 2⟩ .empty (sealedLock 2 0x866d)).frame
      ∧ (IpVerifies (sealedLock 2 0x866d).frame
        → IpVerifies (valeLookup ⟨1, 2⟩ .empty (sealedLock 2 0x866d)).frame) :=
  (@reply_checksums_iff ⟨1, 2⟩ .empty (sealedLock 2 0x866d) ⟨by decide, by decide⟩
    (by decide)).mpr (by decide)

/-- Sent with status 0, as the client library does, it is answered with a checksum that does
not verify.
-/
theorem reply_checksums_broken
    : Answers ⟨1, 2⟩ .empty (sealedLock 0 0x886d)
      ∧ UdpVerifies (sealedLock 0 0x886d).frame
      ∧ ¬ UdpVerifies (valeLookup ⟨1, 2⟩ .empty (sealedLock 0 0x886d)).frame := by
  refine ⟨⟨by decide, by decide⟩, by decide, by decide⟩

end PrismHTTP.Switch
