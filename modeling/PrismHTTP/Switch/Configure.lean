import PrismHTTP.Switch.Packet

/-! The switch's control plane: the five request handlers, the in-place reply and the
dispatcher `configure_switch`. Handlers return the C result, zero or a negated error number.
-/

namespace PrismHTTP.Switch
open ByteLayout

/-- `prism_switch_metadata` with the frame between `data` and `data_end` and both tables. -/
structure PacketCtx where
  frame : Frame
  prism : PrismTable
  l2 : L2Table
  cur : Nat
  sport : UInt32
  dport : UInt32
  matched : Bool
  abort : Bool

def csum16Add (csum addend : UInt16) : UInt16 :=
  let ret := csum + addend
  ret + (if ret < addend then 1 else 0)

def csum16Sub (csum addend : UInt16) : UInt16 := csum16Add csum (~~~addend)

/-- Answer in place: swap the addresses and adjust the UDP checksum for a new status. -/
def configPrepareResponse (ctx : PacketCtx) (status : Int) : PacketCtx :=
  if status > 0 then
    { ctx with abort := true }
  else
    let f := ctx.frame
    -- the unrolled loop exchanges the two hardware addresses byte by byte
    let f := setRun (setRun f 6 (ethDst f)) 0 (ethSrc f)
    let f := set32 (set32 f 26 (ipDst f)) 30 (ipSrc f)
    let f := set16 (set16 f 34 (udpDst f)) 36 (udpSrc f)
    let udp_csum := csum16Sub (udpCsum f) (~~~(prbStatus f).toUInt32).toUInt16
    let udp_csum := csum16Add udp_csum (~~~(UInt16.ofInt (-status)).toUInt32).toUInt16
    { ctx with frame := set16 f 40 udp_csum }

def configHandleAddReq (ctx : PacketCtx) : PacketCtx × Int :=
  if ¬ ctx.cur + sizeofPswAddReq ≤ ctx.frame.length then
    (ctx, -einval)
  else
    let par := PswAddReq.load ctx.frame ctx.cur
    let key := PrismKey.ofPeer par.peerAddr par.peerPort
    match ctx.prism.lookup key with
    | some _ => (ctx, -eexist)
    | none =>
        let newVal : PrismValue := {
          virtualAddr := par.virtualAddr
          virtualPort := par.virtualPort
          ownerAddr := par.ownerAddr
          ownerPort := par.ownerPort
          ownerMac := par.ownerMac
          locked := par.lock
        }
        let (prism, error) := mapUpdate ctx.prism key newVal
        ({ ctx with prism }, error)

def configHandleDeleteReq (ctx : PacketCtx) : PacketCtx × Int :=
  if ¬ ctx.cur + sizeofPswDeleteReq ≤ ctx.frame.length then
    (ctx, -einval)
  else
    let pdr := PswDeleteReq.load ctx.frame ctx.cur
    let (prism, error) := mapDelete ctx.prism (.ofPeer pdr.peerAddr pdr.peerPort)
    ({ ctx with prism }, error)

def configHandleChownReq (ctx : PacketCtx) : PacketCtx × Int :=
  if ¬ ctx.cur + sizeofPswChownReq ≤ ctx.frame.length then
    ({ ctx with abort := true }, -einval)
  else
    let pcr := PswChownReq.load ctx.frame ctx.cur
    let key := PrismKey.ofPeer pcr.peerAddr pcr.peerPort
    match ctx.prism.lookup key with
    | none => (ctx, -enoent)
    | some val =>
        let newVal := {
          val with
            ownerAddr := pcr.ownerAddr
            ownerPort := pcr.ownerPort
            ownerMac := pcr.ownerMac
        }
        let newVal :=
          if pcr.unlock ≠ 0 then
            { newVal with locked := if newVal.locked = 1 then 0 else 1 }
          else
            newVal
        let (prism, error) := mapUpdate ctx.prism key newVal
        ({ ctx with prism }, error)

def configHandleLockReq (ctx : PacketCtx) : PacketCtx × Int :=
  if ¬ ctx.cur + sizeofPswLockReq ≤ ctx.frame.length then
    ({ ctx with abort := true }, -einval)
  else
    let plr := PswLockReq.load ctx.frame ctx.cur
    let key := PrismKey.ofPeer plr.peerAddr plr.peerPort
    match ctx.prism.lookup key with
    | none => (ctx, -enoent)
    | some val =>
        let newVal := { val with locked := if val.locked = 0 then 1 else 0 }
        let (prism, error) := mapUpdate ctx.prism key newVal
        ({ ctx with prism }, error)

def configHandleUnlockReq (ctx : PacketCtx) : PacketCtx × Int :=
  if ¬ ctx.cur + sizeofPswLockReq ≤ ctx.frame.length then
    ({ ctx with abort := true }, -einval)
  else
    let pur := PswLockReq.load ctx.frame ctx.cur
    let key := PrismKey.ofPeer pur.peerAddr pur.peerPort
    match ctx.prism.lookup key with
    | none => (ctx, -enoent)
    | some val =>
        let newVal := { val with locked := if val.locked = 1 then 0 else 1 }
        let (prism, error) := mapUpdate ctx.prism key newVal
        ({ ctx with prism }, error)

def PswRequests.handle : PswRequests → PacketCtx → PacketCtx × Int
  | .add => configHandleAddReq
  | .delete => configHandleDeleteReq
  | .chown => configHandleChownReq
  | .lock => configHandleLockReq
  | .unlock => configHandleUnlockReq

/-- The `switch (prb->type)` of `configure_switch`; `none` is its default branch. -/
def configHandleReq (ctx : PacketCtx) : Option (PacketCtx × Int) :=
  (PswRequests.ofByte (get8 ctx.frame ctx.cur)).map fun type => type.handle ctx

def configureSwitch (ctx : PacketCtx) : PacketCtx :=
  if ¬ ctx.cur + sizeofPswReqBase ≤ ctx.frame.length then
    { ctx with abort := true }
  else
    match configHandleReq ctx with
    | none => { ctx with abort := true }
    | some (handled, error) => configPrepareResponse handled error

/-- The complete request of a known type at `cur`, if there is one. -/
def decodeReq (f : Bytes) (cur : Nat) : Option PswReq :=
  (PswRequests.ofByte (get8 f cur)).bind fun type =>
    if cur + type.sizeof ≤ f.length then some (type.load f cur) else none

/-- The rule a successful ADD installs. -/
def PswAddReq.rule (req : PswAddReq) : PrismValue where
  virtualAddr := req.virtualAddr
  virtualPort := req.virtualPort
  ownerAddr := req.ownerAddr
  ownerPort := req.ownerPort
  ownerMac := req.ownerMac
  locked := req.lock

/-- What a request makes of the rule it finds: the rule it stores, or an error number. -/
def PswReq.onRule : PswReq → Option PrismValue → Except Int (Option PrismValue)
  | .add req, none => .ok (some req.rule)
  | .add _, some _ => .error eexist
  | .delete _, some _ => .ok none
  | .chown req, some val =>
      .ok
        (some
          {
            val with
              ownerAddr := req.ownerAddr
              ownerPort := req.ownerPort
              ownerMac := req.ownerMac
              locked :=
                if req.unlock ≠ 0 then (if val.locked = 1 then 0 else 1) else val.locked
          })
  | .lock _, some val => .ok (some { val with locked := if val.locked = 0 then 1 else 0 })
  | .unlock _, some val => .ok (some { val with locked := if val.locked = 1 then 0 else 1 })
  | _, none => .error enoent

/-- A request's effect on the whole table, with the handler's result. -/
def PswReq.execute (req : PswReq) (prism : PrismTable) : PrismTable × Int :=
  match req.onRule (prism.lookup req.key) with
  | .error errno => (prism, -errno)
  | .ok (some val) => mapUpdate prism req.key val
  | .ok none => mapDelete prism req.key

end PrismHTTP.Switch
