import PrismHTTP.Switch.Configure

/-! The switch's data plane and its entry point `vale_lookup`.
The entry point is split at its `l2` label: everything before either leaves the function or
jumps there, and the label hands the context to the learning switch.
-/

namespace PrismHTTP.Switch
open ByteLayout

/-- The high half of a 32-bit field, complemented and truncated as the C expression is. -/
def notHigh (v : UInt32) : UInt16 := (~~~(v >>> 16)).toUInt16

def notLow (v : UInt32) : UInt16 := (~~~(v &&& 0xffff)).toUInt16

/-- `~` of a 16-bit field after its promotion to `int`, truncated again. -/
def notPort (v : UInt16) : UInt16 := (~~~v.toUInt32).toUInt16

/-- The incremental update for one replaced address. -/
def csumReplaceAddr (csum : UInt16) (old new : UInt32) : UInt16 :=
  let csum := csum16Sub csum (notHigh old)
  let csum := csum16Sub csum (notLow old)
  let csum := csum16Add csum (notHigh new)
  csum16Add csum (notLow new)

/-- The incremental update for one replaced port. -/
def csumReplacePort (csum : UInt16) (old new : UInt16) : UInt16 :=
  csum16Add (csum16Sub csum (notPort old)) (notPort new)

def prismOutLookup (ctx : PacketCtx) : PacketCtx :=
  let f := ctx.frame
  match ctx.prism.lookup (.ofPeer (ipDst f) (tcpDst f)) with
  | none => ctx
  | some val =>
      if val.locked ≠ 0 then
        { ctx with abort := true }
      else
        let ip_csum := csumReplaceAddr (ipCsum f) (ipSrc f) val.virtualAddr
        let tcp_csum := csumReplaceAddr (tcpCsum f) (ipSrc f) val.virtualAddr
        let tcp_csum := csumReplacePort tcp_csum (tcpSrc f) val.virtualPort
        let f := set16 (set16 f 24 ip_csum) 50 tcp_csum
        let f := set32 (set16 f 34 val.virtualPort) 26 val.virtualAddr
        { ctx with frame := f, matched := true }

def prismInLookup (ctx : PacketCtx) : PacketCtx :=
  let f := ctx.frame
  match ctx.prism.lookup (.ofPeer (ipSrc f) (tcpSrc f)) with
  | none => ctx
  | some val =>
      if val.locked = 1 then
        { ctx with abort := true }
      else
        let ip_csum := csumReplaceAddr (ipCsum f) (ipDst f) val.ownerAddr
        let tcp_csum := csumReplaceAddr (tcpCsum f) (ipDst f) val.ownerAddr
        let tcp_csum := csumReplacePort tcp_csum (tcpDst f) val.ownerPort
        let f := setRun f 0 val.ownerMac
        let f := set16 (set16 f 24 ip_csum) 50 tcp_csum
        let f := set16 (set32 f 30 val.ownerAddr) 36 val.ownerPort
        { ctx with frame := f, matched := true }

def l2Lookup (ctx : PacketCtx) : PacketCtx :=
  let f := ctx.frame
  if get8 f 0 &&& 1 ≠ 0 then
    { ctx with dport := valeBpfBroadcast }
  else
    let (l2, error) :=
      match ctx.l2.lookup (ethSrc f) with
      | none => mapUpdate ctx.l2 (ethSrc f) ctx.sport
      | some sport =>
          -- the port is overwritten through the pointer into the table
          if sport ≠ ctx.sport then ((mapUpdate ctx.l2 (ethSrc f) ctx.sport).1, 0)
          else (ctx.l2, 0)
    if error ≠ 0 then
      { ctx with l2, dport := valeBpfDrop }
    else
      match l2.lookup (ethDst f) with
      | none => { ctx with l2, dport := valeBpfBroadcast }
      | some dport => { ctx with l2, dport }

/-- The two maps, which outlive a packet. -/
structure SwitchState where
  prism : PrismTable
  l2 : L2Table
  deriving DecidableEq

def SwitchState.empty : SwitchState := ⟨.empty, .empty⟩

/-- `xdp_md`: the packet and the port it came in by. -/
structure XdpMd where
  frame : Frame
  ingressIfindex : UInt32

/-- How control leaves the part of `vale_lookup` above its `l2` label. -/
inductive Exit where
  | gotoL2 (ctx : PacketCtx)
  | ret (port : UInt32) (ctx : PacketCtx)

def PacketCtx.init (st : SwitchState) (md : XdpMd) : PacketCtx where
  frame := md.frame
  prism := st.prism
  l2 := st.l2
  cur := 0
  sport := md.ingressIfindex
  dport := valeBpfDrop
  matched := false
  abort := false

/-- The prism logic for a complete TCP header. -/
def prismLookup (ctx : PacketCtx) : Exit :=
  let ctx := prismOutLookup ctx
  if ctx.matched then .gotoL2 ctx
  else if ctx.abort then .ret valeBpfDrop ctx
  else
    let ctx := prismInLookup ctx
    if ctx.abort then .ret valeBpfDrop ctx else .gotoL2 ctx

/-- A datagram to the configuration address is executed and sent back where it came from. -/
def configLookup (ctx : PacketCtx) : Exit :=
  let ctx := configureSwitch ctx
  if ctx.abort then .ret valeBpfDrop ctx else .ret ctx.sport ctx

/-- `vale_lookup` up to its `l2` label: the parsers and the two planes. -/
def valeLookupParse (conf : Config) (st : SwitchState) (md : XdpMd) : Exit :=
  let ctx := PacketCtx.init st md
  let f := md.frame
  if ¬ ctx.cur + sizeofEth ≤ f.length then .ret valeBpfDrop ctx
  else if bpfNtohs (ethType f) ≠ ethPIp then .gotoL2 ctx
  else
    let ctx := { ctx with cur := ctx.cur + sizeofEth }
    if ¬ ctx.cur + sizeofIp ≤ f.length then .gotoL2 ctx
    else if ipHl f ≠ 5 then .gotoL2 ctx
    else
      let ctx := { ctx with cur := ctx.cur + sizeofIp }
      if ipProto f = ipprotoUdp then
        if ¬ ctx.cur + sizeofUdp ≤ f.length then .gotoL2 ctx
        else
          let ctx := { ctx with cur := ctx.cur + sizeofUdp }
          if ipDst f ≠ conf.addr ∨ udpDst f ≠ conf.port then .gotoL2 ctx
          else configLookup ctx
      else if ipProto f = ipprotoTcp then
        if ¬ ctx.cur + sizeofTcp ≤ f.length then .gotoL2 ctx
        else prismLookup { ctx with cur := ctx.cur + sizeofTcp }
      else .gotoL2 ctx

/-- The port a packet leaves by, its bytes, and the maps it leaves behind. -/
structure Verdict where
  port : UInt32
  frame : Frame
  state : SwitchState

def PacketCtx.verdict (ctx : PacketCtx) (port : UInt32) : Verdict :=
  ⟨port, ctx.frame, ⟨ctx.prism, ctx.l2⟩⟩

def valeLookup (conf : Config) (st : SwitchState) (md : XdpMd) : Verdict :=
  match valeLookupParse conf st md with
  | .ret port ctx => ctx.verdict port
  | .gotoL2 ctx =>
      let ctx := l2Lookup ctx
      ctx.verdict ctx.dport

end PrismHTTP.Switch
