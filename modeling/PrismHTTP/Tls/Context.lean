import PrismHTTP.Library.BigEndian

/-! The TLS context of a connection and its export.
Of the context only what the export, the import and the kernel's TLS use is kept. The states of
the AES ciphers come from a library outside this repository; allocations do not fail.
-/

namespace PrismHTTP.Tls
open ByteLayout BigEndian

/-- A pointer with its length in a field of so many bits. -/
structure Counted (bits : Nat) where
  bytes : Bytes
  small : bytes.length < 2 ^ bits

/-- Counted buffers with the same bytes are the same. -/
@[ext] theorem Counted.ext {bits : Nat} {b c : Counted bits} (same : b.bytes = c.bytes)
    : b = c := by
  cases b
  cases c
  simpa using same

def Counted.empty (bits : Nat) : Counted bits := ⟨[], Nat.two_pow_pos bits⟩

/-- `chacha_ctx`, as far as it is exported. -/
structure ChachaCtx where
  input : Vector UInt32 16
  ks : Vector UInt8 64

/-- The CBC and GCM states of the cipher library, for AES. A CBC state gives the vector it was
started with.
-/
structure CipherLib where
  Cbc : Type
  Gcm : Type
  cbcStart (iv : Vector UInt8 16) (key : Bytes) : Option Cbc
  cbcGetiv : Cbc → Vector UInt8 16
  gcmInit (key : Bytes) : Option Gcm
  getiv_start {iv : Vector UInt8 16} {key : Bytes} {cbc : Cbc} (started : cbcStart iv key = some cbc)
    : cbcGetiv cbc = iv

/-- The `ctx_local` and `ctx_remote` unions, told apart by `created`. -/
inductive Crypto (lib : CipherLib) where
  | none
  | cbc (ctxLocal ctxRemote : lib.Cbc)
  | gcm (ctxLocal ctxRemote : lib.Gcm)
  | chacha (ctxLocal ctxRemote : ChachaCtx)

/-- `crypto.created`. -/
def Crypto.created {lib : CipherLib} : Crypto lib → UInt8
  | .none => 0
  | .cbc .. => 1
  | .gcm .. => 2
  | .chacha .. => 3

/-- `struct TLSContext`. The unions `ctx_local_mac` and `ctx_remote_mac` are their bytes,
which start with the AEAD IV or the nonce where there is one.
-/
structure TLSContext (lib : CipherLib) where
  version : UInt16
  cipher : UInt16
  isServer : UInt8
  isChild : UInt8
  connectionStatus : UInt8
  criticalError : UInt8
  cipherSpecSet : UInt8
  exportable : UInt8
  exportableKeys : Counted 8
  crypto : Crypto lib
  localMac : Vector UInt8 48
  remoteMac : Vector UInt8 48
  masterKey : Counted 32
  localSequenceNumber : UInt64
  remoteSequenceNumber : UInt64
  tlsBuffer : Counted 32
  messageBuffer : Counted 32
  applicationBuffer : Counted 32
  dtls : UInt8
  dtlsEpochLocal : UInt16
  dtlsEpochRemote : UInt16

/-- A copy to the start of a field. -/
def overlay {n : Nat} (field : Vector UInt8 n) (b : Bytes) : Vector UInt8 n :=
  getRun n (b ++ field.toList.drop b.length) 0

def tlsV12 : UInt16 := 0x0303

def dtlsV10 : UInt16 := 0xfeff

def dtlsV12 : UInt16 := 0xfefd

def dtlsV13 : UInt16 := 0xfefc

def tlsV13 : UInt16 := 0x0304

def tlsCreateContext (lib : CipherLib) (isServer : UInt8) (version : UInt16)
    : TLSContext lib where
  version := version
  cipher := 0
  isServer := isServer
  isChild := 0
  connectionStatus := 0
  criticalError := 0
  cipherSpecSet := 0
  exportable := 0
  exportableKeys := .empty 8
  crypto := .none
  localMac := Vector.replicate 48 0
  remoteMac := Vector.replicate 48 0
  masterKey := .empty 32
  localSequenceNumber := 0
  remoteSequenceNumber := 0
  tlsBuffer := .empty 32
  messageBuffer := .empty 32
  applicationBuffer := .empty 32
  dtls := if version = dtlsV13 ∨ version = dtlsV12 ∨ version = dtlsV10 then 1 else 0
  dtlsEpochLocal := 0
  dtlsEpochRemote := 0

/-- `_private_tls_key_length`. -/
def keyLength (cipher : UInt16) : Nat :=
  if cipher ∈ [0x002f, 0x003c, 0x009c, 0x0033, 0x0067, 0x009e, 0xc013, 0xc027, 0xc02f, 0xc009,
      0xc023, 0xc02b, 0x1301] then
    16
  else if cipher ∈ [0x0035, 0x003d, 0x009d, 0x0039, 0x006b, 0x009f, 0xc014, 0xc030, 0xc00a, 0xc024,
      0xc02c, 0xcca8, 0xcca9, 0xccaa, 0x1302, 0x1303] then
    32
  else 0

/-- `_private_tls_is_aead`: 1 for the GCM suites, 2 for the ChaCha20 ones. -/
def isAead (cipher : UInt16) : Nat :=
  if cipher ∈ [0x009c, 0x009d, 0x009e, 0x009f, 0xc02f, 0xc030, 0xc02b, 0xc02c, 0x1301, 0x1302] then
    1
  else if cipher ∈ [0xcca8, 0xcca9, 0xccaa, 0x1303] then 2
  else 0

/-- `_private_tls_mac_length`, without TLS 1.3. -/
def macLength (cipher : UInt16) : Nat :=
  if cipher ∈ [0x002f, 0x0035, 0x0033, 0x0039, 0xc013, 0xc014, 0xc009, 0xc00a] then 20
  else if cipher ∈ [0x003c, 0x003d, 0x009c, 0x0067, 0x006b, 0x009e, 0xc027, 0xc02f, 0xc023, 0xc02b,
      0xcca8, 0xcca9, 0xccaa] then
    32
  else if cipher ∈ [0x009d, 0x009f, 0xc030, 0xc024, 0xc02c] then 48
  else 0

/-- `sigma` and `tau`: "expand 32-byte k" and "expand 16-byte k". -/
def sigma : Bytes := "expand 32-byte k".toUTF8.toList

def tau : Bytes := "expand 16-byte k".toUTF8.toList

/-- The words behind the key are left as they are. -/
def chachaKeysetup (x : ChachaCtx) (k : Bytes) (kbits : Nat) : ChachaCtx :=
  let second := if kbits = 256 then k.drop 16 else k
  let constants := if kbits = 256 then sigma else tau
  { x with
    input := Vector.ofFn fun i =>
      if i.val < 4 then get32 constants (4 * i)
      else if i.val < 8 then get32 k (4 * (i - 4))
      else if i.val < 12 then get32 second (4 * (i - 8))
      else x.input[i] }

/-- With the counter 1, as both callers pass it. -/
def chachaIvsetup96bitnonce (x : ChachaCtx) (iv : Bytes) : ChachaCtx :=
  { x with
    input := Vector.ofFn fun i =>
      if i.val = 12 then 1
      else if 12 < i.val then get32 iv (4 * (i - 13))
      else x.input[i] }

/-- `ctx_local.chacha_local` and its remote sibling in a context without a cipher. -/
def chachaBlank : ChachaCtx := ⟨Vector.replicate 16 0, Vector.replicate 64 0⟩

/-- `_private_tls_crypto_create`, for a context that has no cipher yet. A key is what its
pointer points to.
-/
def cryptoCreate {lib : CipherLib} (cipher : UInt16) (keyLength : Nat) (localKey : Bytes)
    (localIv : Vector UInt8 16) (remoteKey : Bytes) (remoteIv : Vector UInt8 16)
    : Option (Crypto lib) :=
  if isAead cipher = 2 then
    let setup (key : Bytes) (iv : Vector UInt8 16) : ChachaCtx :=
      chachaIvsetup96bitnonce (chachaKeysetup chachaBlank key (keyLength * 8)) iv.toList
    some (.chacha (setup localKey localIv) (setup remoteKey remoteIv))
  else if isAead cipher ≠ 0 then
    match lib.gcmInit (localKey.take keyLength), lib.gcmInit (remoteKey.take keyLength) with
    | some ctxLocal, some ctxRemote => some (.gcm ctxLocal ctxRemote)
    | _, _ => none
  else
    match lib.cbcStart localIv (localKey.take keyLength),
      lib.cbcStart remoteIv (remoteKey.take keyLength) with
    | some ctxLocal, some ctxRemote => some (.cbc ctxLocal ctxRemote)
    | _, _ => none

def tlsAesIvLength : Nat := 16

def tlsAesGcmIvLength : Nat := 4

def tlsChacha20IvLength : Nat := 12

def tlsMaxMacSize : Nat := 48

def tlsSerializedObject : UInt8 := 0xfe

/-- A packet is the bytes in its buffer. -/
abbrev TLSPacket := Bytes

/-- The two bytes of the length are set by `tls_packet_update`. -/
def tlsCreatePacket (type : UInt8) (version : UInt16) : TLSPacket := [type] ++ be16 version ++ [0, 0]

def tlsPacketAppend (packet : TLSPacket) (buf : Bytes) : TLSPacket := packet ++ buf

def tlsPacketUint8 (packet : TLSPacket) (i : UInt8) : TLSPacket := tlsPacketAppend packet [i]

def tlsPacketUint16 (packet : TLSPacket) (i : UInt16) : TLSPacket :=
  tlsPacketAppend packet (be16 i)

def tlsPacketUint32 (packet : TLSPacket) (i : UInt32) : TLSPacket :=
  tlsPacketAppend packet (be32 i)

def tlsPacketUpdate (packet : TLSPacket) : TLSPacket :=
  write packet 3 (be16 (UInt16.ofNat (packet.length - 5)))

section Export

variable {lib : CipherLib}

/-- A buffer behind its length. -/
def tlsPacketBuffer (packet : TLSPacket) (buffer : Counted 32) : TLSPacket :=
  tlsPacketAppend (tlsPacketUint32 packet (UInt32.ofNat buffer.bytes.length)) buffer.bytes

/-- The initialization vectors of the two directions. -/
def TLSContext.ivs (context : TLSContext lib) : Bytes × Bytes :=
  match context.crypto with
  | .gcm .. =>
      (context.localMac.toList.take tlsAesGcmIvLength,
        context.remoteMac.toList.take tlsAesGcmIvLength)
  | .chacha .. =>
      (context.localMac.toList.take tlsChacha20IvLength,
        context.remoteMac.toList.take tlsChacha20IvLength)
  | .cbc ctxLocal ctxRemote => ((lib.cbcGetiv ctxLocal).toList, (lib.cbcGetiv ctxRemote).toList)
  | .none => ([], [])

def exportIvs (context : TLSContext lib) (packet : TLSPacket) : TLSPacket :=
  let (localIv, remoteIv) := context.ivs
  let packet := tlsPacketUint8 packet (UInt8.ofNat localIv.length)
  tlsPacketAppend (tlsPacketAppend packet localIv) remoteIv

/-- The 16 words of a ChaCha20 state. -/
def chachaWords (ctx : ChachaCtx) : Bytes := ctx.input.toList.flatMap be32

/-- MAC keys, or the ChaCha20 states. -/
def exportMacs (context : TLSContext lib) (packet : TLSPacket) : TLSPacket :=
  match context.crypto with
  | .gcm .. => tlsPacketUint8 packet 0
  | .chacha ctxLocal ctxRemote =>
      let packet := tlsPacketUint8 packet 0
      let packet := tlsPacketAppend packet (chachaWords ctxLocal)
      let packet := tlsPacketAppend packet (chachaWords ctxRemote)
      tlsPacketAppend (tlsPacketAppend packet ctxLocal.ks.toList) ctxRemote.ks.toList
  | .cbc .. | .none =>
      let macLength := macLength context.cipher
      let packet := tlsPacketUint8 packet (UInt8.ofNat macLength)
      let packet := tlsPacketAppend packet (context.localMac.toList.take macLength)
      tlsPacketAppend packet (context.remoteMac.toList.take macLength)

def exportMasterKey (context : TLSContext lib) (smallVersion : Bool) (packet : TLSPacket)
    : TLSPacket :=
  if smallVersion then
    tlsPacketUint16 packet 0
  else
    tlsPacketAppend (tlsPacketUint16 packet (UInt16.ofNat context.masterKey.bytes.length))
      context.masterKey.bytes

def exportDtls (context : TLSContext lib) (packet : TLSPacket) : TLSPacket :=
  let packet := tlsPacketUint8 packet context.dtls
  if context.dtls ≠ 0 then
    tlsPacketUint16 (tlsPacketUint16 packet context.dtlsEpochLocal) context.dtlsEpochRemote
  else
    packet

/-- A negotiated connection without an error that keeps its keys. -/
def TLSContext.Exportable (context : TLSContext lib) : Prop :=
  context.criticalError = 0
  ∧ context.connectionStatus = 0xff
  ∧ context.exportable ≠ 0
  ∧ context.exportableKeys.bytes ≠ []
  ∧ context.crypto.created ≠ 0

instance (context : TLSContext lib) : Decidable context.Exportable :=
  inferInstanceAs (Decidable (_ ∧ _))

/-- The packet of `tls_export_context`. -/
def exportPacket (context : TLSContext lib) (smallVersion : Bool) : TLSPacket :=
  let packet := tlsCreatePacket tlsSerializedObject context.version
  let packet := tlsPacketUint8 packet 1
  let packet := tlsPacketUint8 packet context.connectionStatus
  let packet := tlsPacketUint16 packet context.cipher
  let packet := tlsPacketUint8 packet (if context.isChild ≠ 0 then 2 else context.isServer)
  let packet := exportIvs context packet
  let packet := tlsPacketUint8 packet (UInt8.ofNat context.exportableKeys.bytes.length)
  let packet := tlsPacketAppend packet context.exportableKeys.bytes
  let packet := exportMacs context packet
  let packet := exportMasterKey context smallVersion packet
  let packet := tlsPacketAppend packet (be64 context.localSequenceNumber)
  let packet := tlsPacketAppend packet (be64 context.remoteSequenceNumber)
  let packet := tlsPacketBuffer packet context.tlsBuffer
  let packet := tlsPacketBuffer packet context.messageBuffer
  let packet := tlsPacketBuffer packet context.applicationBuffer
  let packet := exportDtls context packet
  tlsPacketUpdate packet

/-- The result and what is copied to the buffer, of the given non-zero length. -/
def tlsExportContext (context : TLSContext lib) (bufLen : UInt32) (smallVersion : Bool)
    : Int × Bytes :=
  if context.Exportable then
    let packet := exportPacket context smallVersion
    let size := UInt32.ofNat packet.length
    if bufLen < size then (bufLen.toInt32.toInt - size.toInt32.toInt, [])
    else (size.toInt32.toInt, packet)
  else
    (0, [])

/-- What `tls_export` comes to. -/
inductive Exported where
  | einval
  /-- A negative size is taken for the length of a string, and an exception ends the program. -/
  | lengthError
  | state (buf : Bytes)
  deriving DecidableEq

def tlsExport (context : TLSContext lib) : Exported :=
  let (ret, buf) := tlsExportContext context 0xffff true
  if ret = 0 then .einval
  else if ret < 0 then .lengthError
  else .state (buf.take ret.toNat)

end Export

end PrismHTTP.Tls
