import PrismHTTP.Library.CursorParsing
import PrismHTTP.Tls.Context

/-! The import of a TLS context from the state of another process.
The header is read at fixed places, which a first check keeps inside the buffer; what follows
it is read by moving a position.
-/

namespace PrismHTTP.Tls
open ByteLayout BigEndian CursorParsing

/-- What the arrays on the stack hold before they are filled. -/
structure Stack where
  localIv : Vector UInt8 16
  remoteIv : Vector UInt8 16
  temp : Vector UInt8 255

def ntohs (b : Bytes) (i : Nat) : UInt16 := UInt16.ofNat (value ((b.drop i).take 2))

def ntohl (b : Bytes) (i : Nat) : UInt32 := UInt32.ofNat (value ((b.drop i).take 4))

def ntohll (b : Bytes) (i : Nat) : UInt64 := UInt64.ofNat (value ((b.drop i).take 8))

def Counted.ofVector {bits n : Nat} (v : Vector UInt8 n) (small : n < 2 ^ bits)
    : Counted bits :=
  ⟨v.toList, by rwa [Vector.length_toList]⟩

section Import

variable {lib : CipherLib}

/-- The initialization vectors go to the MAC unions of an AEAD cipher. -/
def installIvs (context : TLSContext lib) (ivLen : Nat) (localIv remoteIv : Vector UInt8 16)
    : TLSContext lib :=
  if isAead context.cipher = 2 then
    let ivLen := min ivLen tlsChacha20IvLength
    { context with
      localMac := overlay context.localMac (localIv.toList.take ivLen)
      remoteMac := overlay context.remoteMac (remoteIv.toList.take ivLen) }
  else if isAead context.cipher ≠ 0 then
    let ivLen := min ivLen tlsAesGcmIvLength
    { context with
      localMac := overlay context.localMac (localIv.toList.take ivLen)
      remoteMac := overlay context.remoteMac (remoteIv.toList.take ivLen) }
  else context

/-- The ciphers of the two directions, from both keys one behind the other. -/
def installKeys (context : TLSContext lib) (keyLengths : Nat) (temp : Bytes)
    (localIv remoteIv : Vector UInt8 16)
    : Option (TLSContext lib) :=
  let half := keyLengths / 2
  let crypto :=
    if context.isServer ≠ 0 then
      cryptoCreate context.cipher half temp localIv (temp.drop half) remoteIv
    else cryptoCreate context.cipher half (temp.drop half) remoteIv temp localIv
  crypto.map fun crypto => { context with crypto := crypto }

/-- Both states of ChaCha20, first the words, then the key streams. -/
def chachaStates (b : Bytes) : ChachaCtx × ChachaCtx :=
  (⟨Vector.ofFn fun i => ntohl b (4 * i), getRun 64 b 128⟩,
    ⟨Vector.ofFn fun i => ntohl b (64 + 4 * i), getRun 64 b 192⟩)

def importMacs (context : TLSContext lib) : Parser (TLSContext lib) := do
  let macLength ← byte
  require (macLength.toNat ≤ tlsMaxMacSize)
  if macLength ≠ 0 then
    let localMac ← take macLength.toNat
    let remoteMac ← take macLength.toNat
    pure { context with
      localMac := overlay context.localMac localMac.toList
      remoteMac := overlay context.remoteMac remoteMac.toList }
  else if isAead context.cipher = 2 then
    let states ← take 256
    pure { context with
      crypto := .chacha (chachaStates states.toList).1 (chachaStates states.toList).2 }
  else pure context

def importMasterKey (context : TLSContext lib) : Parser (TLSContext lib) := do
  let masterKeyLen ← word16
  if masterKeyLen ≠ 0 then
    let masterKey ← take masterKeyLen.toNat
    pure { context with
      masterKey := .ofVector masterKey (Nat.lt_trans masterKeyLen.toNat_lt (by decide)) }
  else pure context

def importSequenceNumbers (context : TLSContext lib) : Parser (TLSContext lib) := do
  let numbers ← take 16
  pure { context with
    localSequenceNumber := ntohll numbers.toList 0
    remoteSequenceNumber := ntohll numbers.toList 8 }

/-- A buffer behind its length, which is checked as an `int`; without bytes the context keeps
the one it has.
-/
def importBuffer (kept : Counted 32) : Parser (Counted 32) := do
  let bufferLen ← word32
  check bufferLen.toInt32.toInt
  if bufferLen ≠ 0 then
    let buffer ← copy bufferLen.toNat
    pure (.ofVector buffer bufferLen.toNat_lt)
  else pure kept

def importDtls (context : TLSContext lib) : Parser (TLSContext lib) := do
  let flag ← take 1
  let dtls := get8 flag.toList 0
  if dtls ≠ 0 then
    let epochs ← take 4
    pure { context with
      dtls := dtls
      dtlsEpochLocal := ntohs epochs.toList 0
      dtlsEpochRemote := ntohs epochs.toList 2 }
  else pure { context with dtls := dtls }

def importSecrets (context : TLSContext lib) (stack : Stack) (ivLen : Nat)
    (localIv remoteIv : Vector UInt8 16)
    : Parser (TLSContext lib) := do
  let keyLengths ← byte
  let keys ← take keyLengths.toNat
  let context := { context with
    exportable := 1, exportableKeys := .ofVector keys keyLengths.toNat_lt }
  let context := installIvs context ivLen localIv remoteIv
  let temp := (overlay stack.temp keys.toList).toList
  let context ← attempt (installKeys context keyLengths.toNat temp localIv remoteIv)
  let context ← importMacs context
  let context ← importMasterKey context
  importSequenceNumbers context

def importBuffers (context : TLSContext lib) : Parser (TLSContext lib) := do
  let tlsBuffer ← importBuffer context.tlsBuffer
  let messageBuffer ← importBuffer context.messageBuffer
  let applicationBuffer ← importBuffer context.applicationBuffer
  pure { context with
    tlsBuffer := tlsBuffer
    messageBuffer := messageBuffer
    applicationBuffer := applicationBuffer
    cipherSpecSet := 1 }

/-- What is read behind the initialization vectors. -/
def importBody (context : TLSContext lib) (stack : Stack) (ivLen : Nat)
    (localIv remoteIv : Vector UInt8 16)
    : Parser (TLSContext lib) := do
  let context ← importSecrets context stack ivLen localIv remoteIv
  let context ← importBuffers context
  importDtls context

/-- `tls_import_context2`. -/
def tlsImportContext2 (context : TLSContext lib) (stack : Stack) (buffer : Bytes)
    : Except Failure (TLSContext lib) :=
  if buffer.length < 64 ∨ get8 buffer 0 ≠ tlsSerializedObject ∨ get8 buffer 5 ≠ 1 then
    .error .refused
  else if (ntohs buffer 3).toNat ≠ buffer.length - 5 then .error .refused
  else
    let server := get8 buffer 9
    let context := { context with
      version := ntohs buffer 1
      connectionStatus := get8 buffer 6
      cipher := ntohs buffer 7
      isServer := if server = 2 then 1 else server
      isChild := if server = 2 then 1 else context.isChild }
    let ivLen := (get8 buffer 10).toNat
    if ivLen > tlsAesIvLength then .error .refused
    else
      let localIv := overlay stack.localIv (getRun ivLen buffer 11).toList
      let remoteIv := overlay stack.remoteIv (getRun ivLen buffer (11 + ivLen)).toList
      run (importBody context stack ivLen localIv remoteIv) buffer (11 + ivLen + ivLen)

def tlsMakeExportable (context : TLSContext lib) (exportableFlag : UInt8) : TLSContext lib :=
  if exportableFlag = 0 then
    { context with exportable := exportableFlag, exportableKeys := .empty 8 }
  else { context with exportable := exportableFlag }

/-- `tls_import`. -/
def tlsImport (context : TLSContext lib) (stack : Stack) (ex : Bytes)
    : Except Failure (TLSContext lib) :=
  (tlsImportContext2 context stack ex).map fun context => tlsMakeExportable context 1

/-- The context of `import_tls`, before the kernel takes over. -/
def importTls (lib : CipherLib) (stack : Stack) (ex : Bytes)
    : Except Failure (TLSContext lib) :=
  (tlsImport (tlsCreateContext lib 1 tlsV12) stack ex).map fun context =>
    tlsMakeExportable context 1

end Import

end PrismHTTP.Tls
