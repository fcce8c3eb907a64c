import PrismHTTP.Library.ByteLayout
import PrismHTTP.Library.BoundedMap

/-! Frames, control requests and tables of the switch program.
Every header sits at a fixed offset once the parser has accepted it: Ethernet at 0, IPv4 at
14, TCP or UDP at 34 and a control request at 42. Multi-byte fields are loaded as the
little-endian host loads them, so addresses and ports keep their network byte order.
-/

namespace PrismHTTP.Switch
open ByteLayout

def e2big : Int := 7
def enoent : Int := 2
def eexist : Int := 17
def einval : Int := 22

def ethPIp : UInt16 := 0x0800
def ipprotoTcp : UInt8 := 6
def ipprotoUdp : UInt8 := 17

def valeBpfBroadcast : UInt32 := 254
def valeBpfDrop : UInt32 := 255

/-- `CONFIG_ADDR` and `CONFIG_PORT`, fixed when the switch program is compiled. -/
structure Config where
  addr : UInt32
  port : UInt16
  deriving DecidableEq

abbrev Frame := Bytes
abbrev Mac := Vector UInt8 6

def sizeofEth : Nat := 14
def sizeofIp : Nat := 20
def sizeofTcp : Nat := 20
def sizeofUdp : Nat := 8

def bpfNtohs (v : UInt16) : UInt16 := (v <<< 8) ||| (v >>> 8)

def ethDst (f : Frame) : Mac := getRun 6 f 0
def ethSrc (f : Frame) : Mac := getRun 6 f 6
def ethType (f : Frame) : UInt16 := get16 f 12

/-- The bit field `hl:4`, the low half of the first header byte. -/
def ipHl (f : Frame) : UInt8 := get8 f 14 &&& 0x0f
def ipProto (f : Frame) : UInt8 := get8 f 23
def ipCsum (f : Frame) : UInt16 := get16 f 24
def ipSrc (f : Frame) : UInt32 := get32 f 26
def ipDst (f : Frame) : UInt32 := get32 f 30

def tcpSrc (f : Frame) : UInt16 := get16 f 34
def tcpDst (f : Frame) : UInt16 := get16 f 36
def tcpCsum (f : Frame) : UInt16 := get16 f 50

def udpSrc (f : Frame) : UInt16 := get16 f 34
def udpDst (f : Frame) : UInt16 := get16 f 36
def udpCsum (f : Frame) : UInt16 := get16 f 40

def prbStatus (f : Frame) : UInt16 := get16 f 43

/-- `prism_key_t`: the peer's address and port, the port widened to 32 bits. -/
structure PrismKey where
  addr : UInt32
  port : UInt32
  deriving DecidableEq

def PrismKey.ofPeer (addr : UInt32) (port : UInt16) : PrismKey := ⟨addr, port.toUInt32⟩

/-- `prism_value_t` without its padding byte. -/
structure PrismValue where
  virtualAddr : UInt32
  virtualPort : UInt16
  ownerAddr : UInt32
  ownerPort : UInt16
  ownerMac : Mac
  locked : UInt8
  deriving DecidableEq

abbrev PrismTable := BoundedMap PrismKey PrismValue 2048
abbrev L2Table := BoundedMap Mac UInt32 2048

/-- A map update as the kernel helper reports it. -/
def mapUpdate {κ ν : Type} [DecidableEq κ] {capacity : Nat} (m : BoundedMap κ ν capacity)
    (key : κ) (value : ν)
    : BoundedMap κ ν capacity × Int :=
  match m.update key value with
  | some updated => (updated, 0)
  | none => (m, -e2big)

/-- A map deletion as the kernel helper reports it. -/
def mapDelete {κ ν : Type} [DecidableEq κ] {capacity : Nat} (m : BoundedMap κ ν capacity)
    (key : κ)
    : BoundedMap κ ν capacity × Int :=
  match m.delete key with
  | some deleted => (deleted, 0)
  | none => (m, -enoent)

structure PswAddReq where
  status : UInt16
  peerAddr : UInt32
  peerPort : UInt16
  virtualAddr : UInt32
  virtualPort : UInt16
  ownerAddr : UInt32
  ownerPort : UInt16
  ownerMac : Mac
  lock : UInt8
  deriving DecidableEq

structure PswChownReq where
  status : UInt16
  peerAddr : UInt32
  peerPort : UInt16
  ownerAddr : UInt32
  ownerPort : UInt16
  ownerMac : Mac
  unlock : UInt8
  deriving DecidableEq

structure PswDeleteReq where
  status : UInt16
  peerAddr : UInt32
  peerPort : UInt16
  deriving DecidableEq

/-- `psw_lock_req`, the layout of LOCK and UNLOCK requests alike. -/
structure PswLockReq where
  status : UInt16
  peerAddr : UInt32
  peerPort : UInt16
  deriving DecidableEq

def sizeofPswReqBase : Nat := 3
def sizeofPswAddReq : Nat := 28
def sizeofPswChownReq : Nat := 22
def sizeofPswDeleteReq : Nat := 9
def sizeofPswLockReq : Nat := 9

/-- `enum psw_requests`, the type byte of a request. -/
inductive PswRequests where
  | add
  | delete
  | chown
  | lock
  | unlock
  deriving DecidableEq

def PswRequests.toByte : PswRequests → UInt8
  | .add => 0
  | .delete => 1
  | .chown => 2
  | .lock => 3
  | .unlock => 4

def PswRequests.ofByte : UInt8 → Option PswRequests
  | 0 => some .add
  | 1 => some .delete
  | 2 => some .chown
  | 3 => some .lock
  | 4 => some .unlock
  | _ => none

/-- A request type is read back from its byte. -/
@[simp] theorem PswRequests.ofByte_toByte (type : PswRequests)
    : ofByte type.toByte = some type := by
  cases type <;> rfl

/-- The size of the structure a request of this type is sent as. -/
def PswRequests.sizeof : PswRequests → Nat
  | .add => sizeofPswAddReq
  | .delete => sizeofPswDeleteReq
  | .chown => sizeofPswChownReq
  | .lock | .unlock => sizeofPswLockReq

/-- The packed structure at `cur`, whose type byte is read separately. -/
def PswAddReq.load (f : Bytes) (cur : Nat) : PswAddReq where
  status := get16 f (cur + 1)
  peerAddr := get32 f (cur + 3)
  peerPort := get16 f (cur + 7)
  virtualAddr := get32 f (cur + 9)
  virtualPort := get16 f (cur + 13)
  ownerAddr := get32 f (cur + 15)
  ownerPort := get16 f (cur + 19)
  ownerMac := getRun 6 f (cur + 21)
  lock := get8 f (cur + 27)

def PswChownReq.load (f : Bytes) (cur : Nat) : PswChownReq where
  status := get16 f (cur + 1)
  peerAddr := get32 f (cur + 3)
  peerPort := get16 f (cur + 7)
  ownerAddr := get32 f (cur + 9)
  ownerPort := get16 f (cur + 13)
  ownerMac := getRun 6 f (cur + 15)
  unlock := get8 f (cur + 21)

def PswDeleteReq.load (f : Bytes) (cur : Nat) : PswDeleteReq where
  status := get16 f (cur + 1)
  peerAddr := get32 f (cur + 3)
  peerPort := get16 f (cur + 7)

def PswLockReq.load (f : Bytes) (cur : Nat) : PswLockReq where
  status := get16 f (cur + 1)
  peerAddr := get32 f (cur + 3)
  peerPort := get16 f (cur + 7)

/-- A complete request of a known type. -/
inductive PswReq where
  | add (req : PswAddReq)
  | delete (req : PswDeleteReq)
  | chown (req : PswChownReq)
  | lock (req : PswLockReq)
  | unlock (req : PswLockReq)
  deriving DecidableEq

def PswReq.type : PswReq → PswRequests
  | .add _ => .add
  | .delete _ => .delete
  | .chown _ => .chown
  | .lock _ => .lock
  | .unlock _ => .unlock

/-- The request of a given type whose structure starts at `cur`. -/
def PswRequests.load (f : Bytes) (cur : Nat) : PswRequests → PswReq
  | .add => .add (.load f cur)
  | .delete => .delete (.load f cur)
  | .chown => .chown (.load f cur)
  | .lock => .lock (.load f cur)
  | .unlock => .unlock (.load f cur)

/-- The table key of the flow a request is about. -/
def PswReq.key : PswReq → PrismKey
  | .add req => .ofPeer req.peerAddr req.peerPort
  | .delete req => .ofPeer req.peerAddr req.peerPort
  | .chown req => .ofPeer req.peerAddr req.peerPort
  | .lock req | .unlock req => .ofPeer req.peerAddr req.peerPort

end PrismHTTP.Switch
