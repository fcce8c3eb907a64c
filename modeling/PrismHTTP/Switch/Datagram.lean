import PrismHTTP.Switch.RequestExecution

/-! Control requests as the clients lay them out in memory, and the datagrams that carry
them. A stored request decodes to itself, and a reply goes back to where its request came
from.
-/

namespace PrismHTTP.Switch
open ByteLayout

/-- The fields every request structure starts with. -/
def storeBase (type : PswRequests) (status : UInt16) (peerAddr : UInt32) (peerPort : UInt16)
    : Bytes :=
  [type.toByte] ++ (bytes16 status ++ (bytes32 peerAddr ++ bytes16 peerPort))

/-- The bytes of the structure a request is sent as. -/
def PswReq.store : PswReq → Bytes
  | .add req =>
      storeBase .add req.status req.peerAddr req.peerPort
      ++ (bytes32 req.virtualAddr
          ++ (bytes16 req.virtualPort
              ++ (bytes32 req.ownerAddr
                  ++ (bytes16 req.ownerPort ++ (req.ownerMac.toList ++ [req.lock])))))
  | .delete req => storeBase .delete req.status req.peerAddr req.peerPort
  | .chown req =>
      storeBase .chown req.status req.peerAddr req.peerPort
      ++ (bytes32 req.ownerAddr
          ++ (bytes16 req.ownerPort ++ (req.ownerMac.toList ++ [req.unlock])))
  | .lock req => storeBase .lock req.status req.peerAddr req.peerPort
  | .unlock req => storeBase .unlock req.status req.peerAddr req.peerPort

/-- A request is stored in as many bytes as its type takes, type by type. -/
theorem PswReq.length_store (req : PswReq) : req.store.length = req.type.sizeof := by
  cases req <;> simp [store, storeBase, type, PswRequests.sizeof, sizeofPswAddReq,
    sizeofPswDeleteReq, sizeofPswChownReq, sizeofPswLockReq]

/-- The four leading fields load back from a stored request, whatever surrounds them. -/
theorem storeBase_fields (type : PswRequests) (status : UInt16) (peerAddr : UInt32)
    (peerPort : UInt16) (pre rest : Bytes)
    : get8 (pre ++ (storeBase type status peerAddr peerPort ++ rest)) pre.length
        = type.toByte
      ∧ get16 (pre ++ (storeBase type status peerAddr peerPort ++ rest)) (pre.length + 1)
        = status
      ∧ get32 (pre ++ (storeBase type status peerAddr peerPort ++ rest)) (pre.length + 3)
        = peerAddr
      ∧ get16 (pre ++ (storeBase type status peerAddr peerPort ++ rest)) (pre.length + 7)
        = peerPort := by
  simp only [storeBase, List.append_assoc]
  refine ⟨?_, ?_, ?_, ?_⟩
  · simp only [get8_append _ le_rfl, Nat.sub_self, get8_singleton]
  · simp (disch := grind) only [get16_append, List.length_singleton,
      Nat.add_sub_cancel_left, Nat.reduceSub, get16_bytes16]
  · simp (disch := grind) only [get32_append, length_bytes16, List.length_singleton,
      Nat.add_sub_cancel_left, Nat.reduceSub, get32_bytes32]
  · simp (disch := grind) only [get16_append, length_bytes16, length_bytes32,
      List.length_singleton, Nat.add_sub_cancel_left, Nat.reduceSub, get16_bytes16]

/-- The part that all requests share takes nine bytes. -/
@[simp, grind =] theorem length_storeBase (type : PswRequests) (status : UInt16) (peerAddr : UInt32)
    (peerPort : UInt16)
    : (storeBase type status peerAddr peerPort).length = 9 := by
  simp [storeBase]

/-- An ADD request is loaded as it was stored, field by field. -/
theorem PswAddReq.load_store (req : PswAddReq) (pre rest : Bytes)
    : PswAddReq.load (pre ++ ((PswReq.add req).store ++ rest)) pre.length = req := by
  simp only [PswReq.store, List.append_assoc, load]
  obtain ⟨-, status, addr, port⟩ := storeBase_fields .add req.status req.peerAddr
    req.peerPort pre
    (bytes32 req.virtualAddr
      ++ (bytes16 req.virtualPort
          ++ (bytes32 req.ownerAddr
              ++ (bytes16 req.ownerPort ++ (req.ownerMac.toList ++ ([req.lock] ++ rest))))))
  simp only [status, addr, port]
  -- each own field lies past the common ones and past the fields stored before it
  simp (disch := grind) only [get8_append, get16_append, get32_append,
    getRun_append, length_storeBase, length_bytes16, length_bytes32, Vector.length_toList,
    Nat.add_sub_cancel_left, Nat.reduceSub, get8_singleton, get16_bytes16, get32_bytes32,
    getRun_toList]

/-- A CHOWN request is loaded as it was stored, field by field. -/
theorem PswChownReq.load_store (req : PswChownReq) (pre rest : Bytes)
    : PswChownReq.load (pre ++ ((PswReq.chown req).store ++ rest)) pre.length = req := by
  simp only [PswReq.store, List.append_assoc, load]
  obtain ⟨-, status, addr, port⟩ := storeBase_fields .chown req.status req.peerAddr
    req.peerPort pre
    (bytes32 req.ownerAddr
      ++ (bytes16 req.ownerPort ++ (req.ownerMac.toList ++ ([req.unlock] ++ rest))))
  simp only [status, addr, port]
  simp (disch := grind) only [get8_append, get16_append, get32_append,
    getRun_append, length_storeBase, length_bytes16, length_bytes32, Vector.length_toList,
    Nat.add_sub_cancel_left, Nat.reduceSub, get8_singleton, get16_bytes16, get32_bytes32,
    getRun_toList]

/-- A stored request decodes to itself, whatever precedes and follows it. -/
theorem decodeReq_store (req : PswReq) (pre rest : Bytes)
    : decodeReq (pre ++ (req.store ++ rest)) pre.length = some req := by
  have size := req.length_store
  have type : get8 (pre ++ (req.store ++ rest)) pre.length = req.type.toByte := by
    cases req with
    | add req | chown req =>
        simp only [PswReq.store, List.append_assoc]
        exact (storeBase_fields _ _ _ _ pre _).1
    | delete req | lock req | unlock req => exact (storeBase_fields _ _ _ _ pre rest).1
  have complete : pre.length + req.type.sizeof ≤ (pre ++ (req.store ++ rest)).length := by
    simp only [List.length_append]
    omega
  simp only [decodeReq, type, PswRequests.ofByte_toByte, Option.bind_some, complete,
    ↓reduceIte, Option.some.injEq]
  cases req with
  | add req => exact congrArg PswReq.add (req.load_store pre rest)
  | chown req => exact congrArg PswReq.chown (req.load_store pre rest)
  | delete req =>
      obtain ⟨-, status, addr, port⟩ := storeBase_fields .delete req.status req.peerAddr
        req.peerPort pre rest
      simp only [PswReq.type, PswRequests.load, PswDeleteReq.load, PswReq.store, status, addr,
        port]
  | lock req =>
      obtain ⟨-, status, addr, port⟩ := storeBase_fields .lock req.status req.peerAddr
        req.peerPort pre rest
      simp only [PswReq.type, PswRequests.load, PswLockReq.load, PswReq.store, status, addr,
        port]
  | unlock req =>
      obtain ⟨-, status, addr, port⟩ := storeBase_fields .unlock req.status req.peerAddr
        req.peerPort pre rest
      simp only [PswReq.type, PswRequests.load, PswLockReq.load, PswReq.store, status, addr,
        port]

/-- One end of a UDP exchange, in network byte order. -/
structure Endpoint where
  addr : UInt32
  port : UInt16
  deriving DecidableEq

def frameSrc (f : Frame) : Endpoint := ⟨ipSrc f, udpSrc f⟩

def frameDst (f : Frame) : Endpoint := ⟨ipDst f, udpDst f⟩

/-- A datagram from `src` to the switch in which every field the switch ignores is zero. -/
def bareDatagram (conf : Config) (src : Endpoint) (payload : Bytes) : Frame :=
  List.replicate 12 0 ++ [0x08, 0x00]
  ++ ([0x45] ++ List.replicate 8 0 ++ [ipprotoUdp] ++ List.replicate 2 0
      ++ bytes32 src.addr ++ bytes32 conf.addr)
  ++ (bytes16 src.port ++ bytes16 conf.port ++ List.replicate 4 0)
  ++ payload

/-- The header fields of a bare datagram, whatever it carries. -/
theorem bareDatagram_header (conf : Config) (src : Endpoint) (payload : Bytes)
    : ParsesConfig conf (bareDatagram conf src payload)
      ∧ frameSrc (bareDatagram conf src payload) = src := by
  simp only [bareDatagram, List.append_assoc]
  have src_addr : get32 (bytes32 src.addr ++ (bytes32 conf.addr
      ++ (bytes16 src.port ++ (bytes16 conf.port ++ (List.replicate 4 0 ++ payload))))) 0
      = src.addr := get32_bytes32 _ _
  have addr : get32 (bytes32 src.addr ++ (bytes32 conf.addr
      ++ (bytes16 src.port ++ (bytes16 conf.port ++ (List.replicate 4 0 ++ payload))))) 4
      = conf.addr := by
    rw [get32_append _ (by simp), length_bytes32, get32_bytes32]
  have src_port : get16 (bytes32 src.addr ++ (bytes32 conf.addr
      ++ (bytes16 src.port ++ (bytes16 conf.port ++ (List.replicate 4 0 ++ payload))))) 8
      = src.port := by
    rw [get16_append _ (by simp), length_bytes32, get16_append _ (by simp), length_bytes32,
      get16_bytes16]
  have port : get16 (bytes32 src.addr ++ (bytes32 conf.addr
      ++ (bytes16 src.port ++ (bytes16 conf.port ++ (List.replicate 4 0 ++ payload))))) 10
      = conf.port := by
    rw [get16_append _ (by simp), length_bytes32, get16_append _ (by simp), length_bytes32,
      get16_append _ (by simp), length_bytes16, get16_bytes16]
  have type : bpfNtohs (get16 [0x08, 0x00] 0) = ethPIp := by decide
  refine ⟨⟨?_, type, (by decide : (0x45 : UInt8) &&& 0x0f = 5), rfl, addr, port⟩, ?_⟩
  · simp only [List.length_append, List.length_replicate, length_bytes32, length_bytes16,
      List.length_cons, List.length_nil, sizeofEth, sizeofIp, sizeofUdp]
    omega
  · exact congrArg₂ Endpoint.mk src_addr src_port

/-- A bare datagram carries exactly the request stored in it. -/
theorem configReq_bareDatagram (conf : Config) (src : Endpoint) (req : PswReq)
    : configReq conf (bareDatagram conf src req.store) = some req := by
  rw [configReq, if_pos (bareDatagram_header conf src req.store).1]
  have split := decodeReq_store req
    (List.replicate 12 0 ++ [0x08, 0x00]
      ++ ([0x45] ++ List.replicate 8 0 ++ [ipprotoUdp] ++ List.replicate 2 0
          ++ bytes32 src.addr ++ bytes32 conf.addr)
      ++ (bytes16 src.port ++ bytes16 conf.port ++ List.replicate 4 0)) []
  rw [List.append_nil] at split
  exact split

/-- The reply keeps the payload: all bytes it rewrites lie in the headers. -/
theorem configPrepareResponse_payload (ctx : PacketCtx) (status : Int) {i : Nat}
    (payload : sizeofEth + sizeofIp + sizeofUdp ≤ i)
    : get8 (configPrepareResponse ctx status).frame i = get8 ctx.frame i := by
  simp only [sizeofEth, sizeofIp, sizeofUdp] at payload
  unfold configPrepareResponse
  split
  · rfl
  · simp only [set16, set32, setRun]
    rw [get8_write_outside (by simp; omega), get8_write_outside (by simp; omega),
      get8_write_outside (by simp; omega), get8_write_outside (by simp; omega),
      get8_write_outside (by simp; omega), get8_write_outside (by simp; omega),
      get8_write_outside (by simp; omega)]

/-- The reply is addressed to the request's source. -/
theorem configPrepareResponse_frameDst {ctx : PacketCtx} {status : Int}
    (len : sizeofEth + sizeofIp + sizeofUdp ≤ ctx.frame.length) (answered : status ≤ 0)
    : frameDst (configPrepareResponse ctx status).frame = frameSrc ctx.frame := by
  simp only [sizeofEth, sizeofIp, sizeofUdp] at len
  have addr (f : Frame) (h : 42 ≤ f.length) (csum p q : UInt16) (a b : UInt32) (s d : Mac)
      : ipDst (set16 (set16 (set16 (set32 (set32 (setRun (setRun f 6 s) 0 d) 26 a) 30 b)
          34 p) 36 q) 40 csum) = b := by
    simp only [ipDst]
    rw [set16, get32_write_outside (by simp), set16, get32_write_outside (by simp), set16,
      get32_write_outside (by simp), get32_set32_self _ (by simp; omega)]
  have port (f : Frame) (h : 42 ≤ f.length) (csum p q : UInt16) (a b : UInt32) (s d : Mac)
      : udpDst (set16 (set16 (set16 (set32 (set32 (setRun (setRun f 6 s) 0 d) 26 a) 30 b)
          34 p) 36 q) 40 csum) = q := by
    simp only [udpDst]
    rw [set16, get16_write_outside (by simp), get16_set16_self _ (by simp; omega)]
  simp only [configPrepareResponse, not_lt.mpr answered, ↓reduceIte, frameDst,
    frameSrc]
  refine congrArg₂ Endpoint.mk ((addr _ len _ _ _ _ _ _ _).trans ?_)
    ((port _ len _ _ _ _ _ _ _).trans ?_)
  · simp only [ipSrc, setRun]
    rw [get32_write_outside (by simp), get32_write_outside (by simp)]
  · simp only [udpSrc, setRun, set32]
    rw [get16_write_outside (by simp), get16_write_outside (by simp),
      get16_write_outside (by simp), get16_write_outside (by simp)]

end PrismHTTP.Switch
