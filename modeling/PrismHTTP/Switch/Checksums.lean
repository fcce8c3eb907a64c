import PrismHTTP.Switch.FlowRewrite
import PrismHTTP.Library.OnesComplement

/-! The rewritten frame keeps its checksums.
`csum16_add` is addition in `ZMod 65535` and `~` is negation there, so each incremental
update cancels the replaced field in the header's total whatever the intermediate values.
-/

namespace PrismHTTP.Switch
open ByteLayout OnesComplement

/-- The IPv4 total length, in network byte order on the wire. -/
def ipLen (f : Frame) : Nat := 256 * (get8 f 16).toNat + (get8 f 17).toNat

def ipHeader (f : Frame) : Bytes := slice f 14 20

/-- What the total length leaves after the IP header; Ethernet padding is not part of it. -/
def tcpSegment (f : Frame) : Bytes := slice f 34 (ipLen f - 20)

def pseudoHeader (f : Frame) : Bytes :=
  bytes32 (ipSrc f)
  ++ (bytes32 (ipDst f)
      ++ [0, ipProto f, UInt8.ofNat ((ipLen f - 20) / 256), UInt8.ofNat (ipLen f - 20)])

def IpVerifies (f : Frame) : Prop := Verifies (ipHeader f)

def TcpVerifies (f : Frame) : Prop := Verifies (pseudoHeader f ++ tcpSegment f)

instance (f : Frame) : Decidable (IpVerifies f) := inferInstanceAs (Decidable (Verifies _))

instance (f : Frame) : Decidable (TcpVerifies f) := inferInstanceAs (Decidable (Verifies _))

/-- `csum16_add` adds modulo 65535. -/
theorem cast_csum16Add (csum addend : UInt16)
    : ((csum16Add csum addend).toNat : ZMod 65535) = csum.toNat + addend.toNat := by
  have carried : (csum16Add csum addend).toNat = OnesComplement.add csum.toNat addend.toNat := by
    have left := csum.toNat_lt
    have right := addend.toNat_lt
    simp only [csum16Add, OnesComplement.add, UInt16.lt_iff_toNat_lt, UInt16.toNat_add]
    by_cases wraps : csum.toNat + addend.toNat < 65536
    · rw [if_neg (by omega), if_pos wraps]
      simp
      omega
    · rw [if_pos (by omega), if_neg wraps]
      simp
      omega
  rw [carried, OnesComplement.cast_add]

/-- A complement is the negative modulo 65535. -/
theorem cast_complement (v : UInt16) : ((~~~v).toNat : ZMod 65535) = -v.toNat := by
  have bound := v.toNat_lt
  have both : (~~~v).toNat + v.toNat = 65535 := by
    rw [UInt16.toNat_not]
    simp
    omega
  have cast := congrArg (Nat.cast : Nat → ZMod 65535) both
  rw [Nat.cast_add, ZMod.natCast_self 65535] at cast
  exact eq_neg_of_add_eq_zero_left cast

/-- `csum16_sub` subtracts modulo 65535. -/
theorem cast_csum16Sub (csum addend : UInt16)
    : ((csum16Sub csum addend).toNat : ZMod 65535) = csum.toNat - addend.toNat := by
  rw [csum16Sub, cast_csum16Add, cast_complement]
  ring

/-- The code's complement of the high half is that of a 16-bit word. -/
theorem notHigh_eq (v : UInt32) : notHigh v = ~~~(v >>> 16).toUInt16 := by
  simp [notHigh]

/-- The code's complement of the low half is that of a 16-bit word. -/
theorem notLow_eq (v : UInt32) : notLow v = ~~~v.toUInt16 := by
  have masked : (v &&& 0xffff).toUInt16 = v.toUInt16 := by
    have low : (0xffff : UInt32).toNat = 2 ^ 16 - 1 := by decide
    apply UInt16.toNat_inj.mp
    rw [UInt32.toNat_toUInt16, UInt32.toNat_toUInt16, UInt32.toNat_and, low,
      Nat.and_two_pow_sub_one_eq_mod, Nat.mod_mod]
  simp [notLow, masked]

/-- The code's complement of a port is that of a 16-bit word. -/
theorem notPort_eq (v : UInt16) : notPort v = ~~~v := by
  simp [notPort]

/-- Replacing an address moves the checksum by the difference of the addresses. -/
theorem cast_csumReplaceAddr (csum : UInt16) (old new : UInt32)
    : ((csumReplaceAddr csum old new).toNat : ZMod 65535)
      = csum.toNat + old.toNat - new.toNat := by
  simp only [csumReplaceAddr, cast_csum16Add, cast_csum16Sub, notHigh_eq, notLow_eq,
    cast_complement]
  rw [cast_halves old, cast_halves new]
  ring

/-- Replacing a port moves the complemented checksum by the difference of the ports. -/
theorem cast_csumReplacePort (csum old new : UInt16)
    : ((csumReplacePort csum old new).toNat : ZMod 65535)
      = csum.toNat + old.toNat - new.toNat := by
  simp only [csumReplacePort, cast_csum16Add, cast_csum16Sub, notPort_eq, cast_complement]
  ring

/-- The headers in place and the segment long enough for the fields rewritten in it. -/
def HoldsTcpHeader (f : Frame) : Prop := 54 ≤ f.length ∧ 40 ≤ ipLen f

def ipTotal (f : Frame) : ZMod 65535 := total (ipHeader f)

def tcpTotal (f : Frame) : ZMod 65535 := total (pseudoHeader f ++ tcpSegment f)

/-- Writing elsewhere leaves the length of the IP packet. -/
theorem ipLen_write {f : Frame} {i : Nat} {vs : Bytes} (h : i + vs.length ≤ 16 ∨ 18 ≤ i)
    : ipLen (write f i vs) = ipLen f := by
  rw [ipLen, get8_write_outside (by omega), get8_write_outside (by omega), ipLen]

/-- A frame holds its TCP header still after a write that leaves the IP length. -/
theorem HoldsTcpHeader.write {f : Frame} (held : HoldsTcpHeader f) {i : Nat} {vs : Bytes}
    (h : i + vs.length ≤ 16 ∨ 18 ≤ i)
    : HoldsTcpHeader (write f i vs) := by
  refine ⟨?_, ?_⟩
  · rw [length_write]
    exact held.1
  · rw [ipLen_write h]
    exact held.2

/-- What a transport checksum covers: the pseudo-header of `len` bytes, and these bytes
behind the IP header.
-/
def transportBytes (f : Frame) (len : Nat) : Bytes :=
  bytes32 (ipSrc f)
  ++ (bytes32 (ipDst f) ++ [0, ipProto f, UInt8.ofNat (len / 256), UInt8.ofNat len])
  ++ slice f 34 len

def transportTotal (f : Frame) (len : Nat) : ZMod 65535 := total (transportBytes f len)

/-- The total of a TCP segment is that of a transport packet as long as the IP packet says. -/
theorem tcpTotal_eq (f : Frame) : tcpTotal f = transportTotal f (ipLen f - 20) := rfl

/-- The two addresses, the rest of the pseudo-header and the bytes themselves. -/
theorem transportTotal_eq (f : Frame) (len : Nat)
    : transportTotal f len
      = 256 * (ipSrc f).toNat + 256 * (ipDst f).toNat
        + total [0, ipProto f, UInt8.ofNat (len / 256), UInt8.ofNat len]
        + total (slice f 34 len) := by
  rw [transportTotal, transportBytes, total_append _ (by simp), total_append _ (by simp),
    total_append _ (by simp), total_bytes32, total_bytes32]
  ring

/-- Setting a 16-bit field of the segment changes its total by the difference of the values. -/
theorem transportTotal_set16 {f : Frame} {i len : Nat} (behind : 34 ≤ i)
    (aligned : i % 2 = 0) (covered : i + 2 ≤ 34 + len) (long : i + 2 ≤ f.length) (v : UInt16)
    : transportTotal (set16 f i v) len
      = transportTotal f len + 256 * ((v.toNat : ZMod 65535) - (get16 f i).toNat) := by
  have moved : total (slice (set16 f i v) 34 len)
      = total (slice f 34 len) + 256 * ((v.toNat : ZMod 65535) - (get16 f i).toNat) := by
    rw [set16, slice_write _ _ behind, ← set16,
      total_set16 _ (by omega) (by rw [length_slice]; omega), get16_slice (by omega),
      show 34 + (i - 34) = i by omega]
  rw [transportTotal_eq, transportTotal_eq, moved, set16, ipSrc, ipDst, ipProto,
    get32_write_outside (by simp; omega), get32_write_outside (by simp; omega),
    get8_write_outside (by omega), ipSrc, ipDst, ipProto]
  ring

/-- Setting an IP address changes the total of the segment, by way of the pseudo header. -/
theorem transportTotal_set32 {f : Frame} {i len : Nat} (at_ : i = 26 ∨ i = 30)
    (long : 34 ≤ f.length) (v : UInt32)
    : transportTotal (set32 f i v) len
      = transportTotal f len + 256 * ((v.toNat : ZMod 65535) - (get32 f i).toNat) := by
  have segment : slice (set32 f i v) 34 len = slice f 34 len := by
    rw [set32, slice_write_outside (by simp; omega)]
  have proto : ipProto (set32 f i v) = ipProto f := by
    rw [set32, ipProto, get8_write_outside (by omega), ipProto]
  rw [transportTotal_eq, transportTotal_eq, segment, proto]
  rcases at_ with rfl | rfl
  · rw [ipSrc, get32_set32_self _ (by omega), ipDst, set32, get32_write_outside (by simp),
      ipSrc, ipDst]
    ring
  · rw [ipDst, get32_set32_self _ (by omega), ipSrc, set32, get32_write_outside (by simp),
      ipSrc, ipDst]
    ring

/-- Setting an IP address changes the total of the IP header by the difference of the values.
-/
theorem ipTotal_set32 {f : Frame} {i : Nat} (at_ : i = 26 ∨ i = 30) (long : 34 ≤ f.length)
    (v : UInt32)
    : ipTotal (set32 f i v)
      = ipTotal f + 256 * ((v.toNat : ZMod 65535) - (get32 f i).toNat) := by
  rw [ipTotal, ipHeader, set32, slice_write _ _ (by omega), ← set32,
    total_set32 _ (by omega) (by rw [length_slice]; omega),
    get32_slice (by omega), show 14 + (i - 14) = i by omega, ipTotal, ipHeader]

/-- Bytes in front of the IP header or behind it are not in its total. -/
theorem ipTotal_write_outside {f : Frame} {i : Nat} {vs : Bytes}
    (outside : i + vs.length ≤ 14 ∨ 34 ≤ i)
    : ipTotal (write f i vs) = ipTotal f := by
  rw [ipTotal, ipHeader, slice_write_outside (by omega), ipTotal, ipHeader]

section
variable {f : Frame} (held : HoldsTcpHeader f)
include held

/-- Setting the IP checksum changes the total of its header by the difference of the values. -/
theorem ipTotal_set16_csum (v : UInt16)
    : ipTotal (set16 f 24 v)
      = ipTotal f + 256 * ((v.toNat : ZMod 65535) - (ipCsum f).toNat) := by
  rw [ipTotal, ipHeader, set16, slice_write _ _ (by decide), ← set16,
    total_set16 _ rfl (by rw [length_slice]; have := held.1; omega),
    get16_slice (by decide), ipTotal, ipHeader, ipCsum]

/-- Setting a port or the checksum changes the total of the segment by the difference of the
values.
-/
theorem tcpTotal_set16_segment {i : Nat} (at_ : i = 34 ∨ i = 36 ∨ i = 50) (v : UInt16)
    : tcpTotal (set16 f i v)
      = tcpTotal f + 256 * ((v.toNat : ZMod 65535) - (get16 f i).toNat) := by
  obtain ⟨long, header⟩ := held
  rw [tcpTotal_eq, set16, ipLen_write (by omega), ← set16,
    transportTotal_set16 (by omega) (by omega) (by omega) (by omega), tcpTotal_eq]

/-- Setting an IP address changes the total of the segment by the difference of the values. -/
theorem tcpTotal_set32 {i : Nat} (at_ : i = 26 ∨ i = 30) (v : UInt32)
    : tcpTotal (set32 f i v)
      = tcpTotal f + 256 * ((v.toNat : ZMod 65535) - (get32 f i).toNat) := by
  have long := held.1
  rw [tcpTotal_eq, set32, ipLen_write (by omega), ← set32,
    transportTotal_set32 at_ (by omega), tcpTotal_eq]

end

/-- Both totals, which a rewrite has to preserve. -/
def Totals (f g : Frame) : Prop := ipTotal g = ipTotal f ∧ tcpTotal g = tcpTotal f

/-- Replacing one address and one port together with the two adjusted checksums preserves
both totals. Witness: every field moves a total by its own difference, and the checksums
move it back.
-/
theorem totals_rewrite {f : Frame} (held : HoldsTcpHeader f) {a p : Nat}
    (addr_at : a = 26 ∨ a = 30) (port_at : p = 34 ∨ p = 36) (addr : UInt32) (port : UInt16)
    : Totals f
        (set32
          (set16
            (set16 (set16 f 24 (csumReplaceAddr (ipCsum f) (get32 f a) addr)) 50
              (csumReplacePort (csumReplaceAddr (tcpCsum f) (get32 f a) addr) (get16 f p)
                port))
            p port)
          a addr) := by
  generalize newIp : csumReplaceAddr (ipCsum f) (get32 f a) addr = ip
  generalize newTcp : csumReplacePort (csumReplaceAddr (tcpCsum f) (get32 f a) addr)
    (get16 f p) port = tcp
  have ipMoved := cast_csumReplaceAddr (ipCsum f) (get32 f a) addr
  have tcpMoved := cast_csumReplacePort (csumReplaceAddr (tcpCsum f) (get32 f a) addr)
    (get16 f p) port
  rw [cast_csumReplaceAddr] at tcpMoved
  rw [newIp] at ipMoved
  rw [newTcp] at tcpMoved
  -- the frame stays long enough through the four writes
  have held₁ : HoldsTcpHeader (set16 f 24 ip) := held.write (by simp)
  have held₂ : HoldsTcpHeader (set16 (set16 f 24 ip) 50 tcp) := held₁.write (by simp)
  have held₃ : HoldsTcpHeader (set16 (set16 (set16 f 24 ip) 50 tcp) p port) :=
    held₂.write (by omega)
  have oldAddr : get32 (set16 (set16 (set16 f 24 ip) 50 tcp) p port) a = get32 f a := by
    rw [set16, get32_write_outside (by simp; omega), set16,
      get32_write_outside (by simp; omega), set16, get32_write_outside (by simp; omega)]
  refine ⟨?_, ?_⟩
  · have long := held₃.1
    rw [ipTotal_set32 addr_at (by omega), oldAddr, set16,
      ipTotal_write_outside (.inr (by omega)), set16, ipTotal_write_outside (.inr (by omega)),
      ipTotal_set16_csum held, ipMoved]
    ring
  -- the IP checksum is outside the segment, so it does not count in the TCP total
  · have csumOnly : tcpTotal (set16 f 24 ip) = tcpTotal f := by
      rw [tcpTotal, pseudoHeader, tcpSegment, set16, ipLen_write (by simp),
        slice_write_outside (by simp), ipSrc, ipDst, ipProto, get32_write_outside (by simp),
        get32_write_outside (by simp), get8_write_outside (by simp), tcpTotal, pseudoHeader,
        tcpSegment, ipSrc, ipDst, ipProto]
    have oldCsum : get16 (set16 f 24 ip) 50 = tcpCsum f := by
      rw [set16, get16_write_outside (by simp), tcpCsum]
    have oldPort : get16 (set16 (set16 f 24 ip) 50 tcp) p = get16 f p := by
      rw [set16, get16_write_outside (by simp; omega), set16,
        get16_write_outside (by simp; omega)]
    rw [tcpTotal_set32 held₃ addr_at, oldAddr, tcpTotal_set16_segment held₂ (by omega),
      oldPort, tcpTotal_set16_segment held₁ (by simp), oldCsum, csumOnly, tcpMoved]
    ring

/-- Rewriting the source keeps both totals. -/
theorem totals_outRewrite {f : Frame} (held : HoldsTcpHeader f) (val : PrismValue)
    : Totals f (outRewrite f val) :=
  totals_rewrite held (Or.inl rfl) (Or.inl rfl) val.virtualAddr val.virtualPort

/-- The hardware address lies outside both checksums, and the two remaining stores of the
incoming rewrite commute.
-/
theorem totals_inRewrite {f : Frame} (held : HoldsTcpHeader f) (val : PrismValue)
    : Totals f (inRewrite f val) := by
  have macOnly : Totals f (setRun f 0 val.ownerMac) := by
    refine ⟨?_, ?_⟩
    · rw [setRun, ipTotal_write_outside (by simp)]
    · rw [tcpTotal, pseudoHeader, tcpSegment, setRun, ipLen_write (by simp),
        slice_write_outside (by simp), ipSrc, ipDst, ipProto, get32_write_outside (by simp),
        get32_write_outside (by simp), get8_write_outside (by simp), tcpTotal, pseudoHeader,
        tcpSegment, ipSrc, ipDst, ipProto]
  have fields : ipCsum (setRun f 0 val.ownerMac) = ipCsum f
      ∧ tcpCsum (setRun f 0 val.ownerMac) = tcpCsum f
      ∧ get32 (setRun f 0 val.ownerMac) 30 = ipDst f
      ∧ get16 (setRun f 0 val.ownerMac) 36 = tcpDst f := by
    refine ⟨?_, ?_, ?_, ?_⟩
    · exact get16_write_outside (by simp)
    · exact get16_write_outside (by simp)
    · exact get32_write_outside (by simp)
    · exact get16_write_outside (by simp)
  have heldMac : HoldsTcpHeader (setRun f 0 val.ownerMac) := held.write (by simp)
  have moved := totals_rewrite heldMac (Or.inr rfl) (Or.inr rfl) val.ownerAddr val.ownerPort
  rw [fields.1, fields.2.1, fields.2.2.1, fields.2.2.2] at moved
  rw [inRewrite, set16, set32, write_comm _ (by simp)]
  exact ⟨moved.1.trans macOnly.1, moved.2.trans macOnly.2⟩

/-- A frame that is left alone keeps its totals. -/
theorem Totals.refl (f : Frame) : Totals f f := ⟨rfl, rfl⟩

/-- Whatever becomes of a TCP frame, its totals survive. -/
theorem valeLookup_totals {md : XdpMd} (tcp : ParsesTcp md.frame) (whole : 40 ≤ ipLen md.frame)
    (conf : Config) (st : SwitchState)
    : Totals md.frame (valeLookup conf st md).frame := by
  have held : HoldsTcpHeader md.frame := ⟨tcp.1, whole⟩
  rcases valeLookup_frame tcp conf st with same | ⟨val, rewritten⟩ | ⟨val, rewritten⟩
  · rw [same]
    exact .refl md.frame
  · rw [rewritten]
    exact totals_outRewrite held val
  · rw [rewritten]
    exact totals_inRewrite held val

/-- A byte other than zero makes a string other than zero. -/
theorem nonzero_of_get8 {b : Bytes} {i : Nat} (h : get8 b i ≠ 0) : Nonzero b := by
  rw [get8, List.getD_eq_getElem?_getD] at h
  cases at_ : b[i]? with
  | none => simp [at_] at h
  | some v =>
      refine ⟨v, List.mem_of_getElem? at_, ?_⟩
      simpa [at_] using h

/-- An IP header has its length field. -/
theorem nonzero_ipHeader {f : Frame} (hl : ipHl f = 5) : Nonzero (ipHeader f) := by
  refine @nonzero_of_get8 _ 0 fun zero => ?_
  rw [ipHeader, get8_slice (by decide)] at zero
  rw [ipHl, zero] at hl
  exact absurd hl (by decide)

/-- A pseudo-header has its protocol number. -/
theorem nonzero_transportBytes {f : Frame} {len : Nat} (proto : ipProto f ≠ 0)
    : Nonzero (transportBytes f len) := by
  refine @nonzero_of_get8 _ 9 fun zero => proto ?_
  rw [transportBytes, get8_append_left _ (by simp), get8_append _ (by simp),
    get8_append _ (by simp)] at zero
  exact zero

/-- Neither sum can be all zero. -/
theorem nonzero_covered {f : Frame} (tcp : ParsesTcp f)
    : Nonzero (ipHeader f) ∧ Nonzero (pseudoHeader f ++ tcpSegment f) := by
  obtain ⟨len, -, hl, proto⟩ := tcp
  have some_proto : ipProto f ≠ 0 := by
    rw [proto]
    decide
  exact ⟨nonzero_ipHeader hl, nonzero_transportBytes some_proto⟩

/-- A frame whose checksums verify leaves the switch with checksums that verify. -/
theorem valeLookup_verifies {conf : Config} {st : SwitchState} {md : XdpMd}
    (tcp : ParsesTcp md.frame) (whole : 40 ≤ ipLen md.frame)
    (ip_ok : IpVerifies md.frame) (tcp_ok : TcpVerifies md.frame)
    : IpVerifies (valeLookup conf st md).frame
      ∧ TcpVerifies (valeLookup conf st md).frame := by
  obtain ⟨ipKept, tcpKept⟩ := valeLookup_totals tcp whole conf st
  obtain ⟨ipSet, tcpSet⟩ := nonzero_covered (tcp.valeLookup conf st)
  refine ⟨(verifies_iff _).mpr ⟨ipSet, ?_⟩, (verifies_iff _).mpr ⟨tcpSet, ?_⟩⟩
  · exact ipKept.trans ((verifies_iff _).mp ip_ok).2
  · exact tcpKept.trans ((verifies_iff _).mp tcp_ok).2

/-- A segment that is redirected to its owner verifies before and after. -/
theorem valeLookup_verifies_sampleSegment
    : let st : SwitchState := ⟨((PswReq.add sampleAdd).execute .empty).1, .empty⟩
      IpVerifies (valeLookup ⟨1, 2⟩ st ⟨sampleSegment, 1⟩).frame
      ∧ TcpVerifies (valeLookup ⟨1, 2⟩ st ⟨sampleSegment, 1⟩).frame :=
  valeLookup_verifies (by decide) (by decide) (by decide) (by decide)

end PrismHTTP.Switch
