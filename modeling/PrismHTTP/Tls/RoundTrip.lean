import PrismHTTP.Tls.Restoring

/-! The export of a context is restored by the import.
What is exported is a saved state of its context, so what becomes of it is read off its
sections.
-/

namespace PrismHTTP.Tls
open ByteLayout BigEndian CursorParsing

/-- A run read inside a buffer is that stretch of the buffer, byte by byte. -/
theorem toList_getRun {n i : Nat} {b : Bytes} (inside : i + n ≤ b.length)
    : (getRun n b i).toList = (b.drop i).take n := by
  refine List.ext_getElem (by simp; omega) fun k short _ => ?_
  have within : k < n := by simpa using short
  simp [getRun, get8, List.getD_eq_getElem?_getD, show i + k < b.length by omega]

/-- Bytes copied over the start of a field are followed by what is left of the field. -/
theorem toList_overlay {n : Nat} (field : Vector UInt8 n) {b : Bytes} (fits : b.length ≤ n)
    : (overlay field b).toList = b ++ field.toList.drop b.length := by
  have length : (b ++ field.toList.drop b.length).length = n := by simp; omega
  rw [overlay, toList_getRun (by omega), List.drop_zero, List.take_of_length_le (by omega)]

/-- The bytes copied over a field are its first ones, by `toList_overlay`. -/
theorem take_overlay {n m : Nat} (field : Vector UInt8 n) {b : Bytes} (fits : b.length ≤ n)
    (length : b.length = m)
    : (overlay field b).toList.take m = b := by
  rw [toList_overlay field fits, List.take_left' length]

/-- A field is replaced as a whole by as many bytes. -/
theorem overlay_toList {n : Nat} (field v : Vector UInt8 n) : overlay field v.toList = v := by
  apply Vector.toList_inj.mp
  rw [toList_overlay field (by simp)]
  simp

/-- The chunk at the `i`-th place of a sequence of equally long chunks is that of the `i`-th
element, by list induction.
-/
theorem chunk_flatMap {α : Type} {n i : Nat} {f : α → Bytes} {l : List α} (rest : Bytes)
    (width : ∀ a, (f a).length = n) (inside : i < l.length)
    : ((l.flatMap f ++ rest).drop (n * i)).take n = f l[i] := by
  -- on the chunks; the first one is dropped whole
  induction l generalizing i with
  | nil => simp at inside
  | cons a l ih =>
      cases i with
      | zero => simp [List.take_left' (width a)]
      | succ i =>
          have shorter : i < l.length := by simpa using inside
          have later := ih shorter
          rw [List.flatMap_cons, List.append_assoc, Nat.mul_succ, Nat.add_comm, ← List.drop_drop,
            List.drop_left' (width a)]
          exact later

/-- The sixteen words of a ChaCha20 state are 64 bytes. -/
theorem length_chachaWords (ctx : ChachaCtx) : (chachaWords ctx).length = 64 := by
  simp [chachaWords, List.length_flatMap]

/-- Each word of a ChaCha20 state is read back at its place, as a chunk of four bytes. -/
theorem ntohl_chachaWords (ctx : ChachaCtx) (rest : Bytes) {i : Nat} (inside : i < 16)
    : ntohl (chachaWords ctx ++ rest) (4 * i) = ctx.input[i] := by
  rw [ntohl, chachaWords, chunk_flatMap rest length_be32 (by simpa using inside),
    ofNat_value_be32, Vector.getElem_toList]

/-- The section of both ChaCha20 states. -/
def chachaBytes (ctxLocal ctxRemote : ChachaCtx) : Bytes :=
  chachaWords ctxLocal
    ++ (chachaWords ctxRemote ++ (ctxLocal.ks.toList ++ ctxRemote.ks.toList))

/-- Both ChaCha20 states and both key streams are 256 bytes. -/
theorem length_chachaBytes (ctxLocal ctxRemote : ChachaCtx)
    : (chachaBytes ctxLocal ctxRemote).length = 256 := by
  simp [chachaBytes, length_chachaWords]

/-- A word behind a prefix is read as if the prefix were not there. -/
theorem ntohl_append {front : Bytes} (back : Bytes) {n : Nat} (length : front.length = n)
    (i : Nat)
    : ntohl (front ++ back) (n + i) = ntohl back i := by
  rw [ntohl, ntohl, ← List.drop_drop, List.drop_left' length]

/-- The importer reads both states back. -/
theorem chachaStates_chachaBytes (ctxLocal ctxRemote : ChachaCtx)
    : chachaStates (chachaBytes ctxLocal ctxRemote) = (ctxLocal, ctxRemote) := by
  have localWords : Vector.ofFn (fun i : Fin 16 => ntohl (chachaBytes ctxLocal ctxRemote) (4 * i))
      = ctxLocal.input := by
    refine Vector.ext fun i inside => ?_
    rw [Vector.getElem_ofFn, chachaBytes]
    exact ntohl_chachaWords ctxLocal _ inside
  have remoteWords
      : Vector.ofFn (fun i : Fin 16 => ntohl (chachaBytes ctxLocal ctxRemote) (64 + 4 * i))
        = ctxRemote.input := by
    refine Vector.ext fun i inside => ?_
    rw [Vector.getElem_ofFn, chachaBytes, ntohl_append _ (length_chachaWords ctxLocal)]
    exact ntohl_chachaWords ctxRemote _ inside
  have localStream : getRun 64 (chachaBytes ctxLocal ctxRemote) 128 = ctxLocal.ks := by
    rw [chachaBytes, ← List.append_assoc, getRun_append _ (by simp [length_chachaWords])]
    simp only [List.length_append, length_chachaWords, Nat.sub_self]
    exact getRun_toList _ _
  have remoteStream : getRun 64 (chachaBytes ctxLocal ctxRemote) 192 = ctxRemote.ks := by
    rw [chachaBytes, ← List.append_assoc, ← List.append_assoc,
      getRun_append _ (by simp [length_chachaWords])]
    simp only [List.length_append, length_chachaWords, Vector.length_toList, Nat.sub_self]
    rw [← List.append_nil ctxRemote.ks.toList]
    exact getRun_toList _ _
  rw [chachaStates, localWords, remoteWords, localStream, remoteStream]

section Export

variable {lib : CipherLib}

/-- The constants and the key words of a state are those of a key; its counter, its nonce and
its key stream have gone on.
-/
def ChachaCtx.HasKey (ctx : ChachaCtx) (key : Bytes) : Prop :=
  ctx.input.toList.take 12
    = (chachaKeysetup chachaBlank key (key.length * 8)).input.toList.take 12

/-- The ciphers of a suite are those of the given keys; a CBC state has gone on to the vector
it is at.
-/
def Crypto.Uses (cipher : UInt16) (key peerKey : Bytes) : Crypto lib → Prop
  | .none => False
  | .cbc ctxLocal ctxRemote =>
      isAead cipher = 0
      ∧ lib.cbcStart (lib.cbcGetiv ctxLocal) key = some ctxLocal
      ∧ lib.cbcStart (lib.cbcGetiv ctxRemote) peerKey = some ctxRemote
  | .gcm ctxLocal ctxRemote =>
      isAead cipher = 1 ∧ lib.gcmInit key = some ctxLocal ∧ lib.gcmInit peerKey = some ctxRemote
  | .chacha ctxLocal ctxRemote =>
      isAead cipher = 2 ∧ ctxLocal.HasKey key ∧ ctxRemote.HasKey peerKey

/-- The keys give an importer the ciphers again: those of AES are made from them, and the states
of ChaCha20 travel beside them, whatever the keys.
-/
def Crypto.Restorable (cipher : UInt16) (key peerKey : Bytes) : Crypto lib → Prop
  | .none => False
  | .cbc ctxLocal ctxRemote => (Crypto.cbc ctxLocal ctxRemote).Uses cipher key peerKey
  | .gcm ctxLocal ctxRemote => (Crypto.gcm ctxLocal ctxRemote).Uses cipher key peerKey
  | .chacha .. => isAead cipher = 2

/-- Ciphers of some keys can be restored with them, by cases on the kind of cipher. -/
theorem Crypto.Uses.restorable {cipher : UInt16} {key peerKey : Bytes} {crypto : Crypto lib}
    (uses : crypto.Uses cipher key peerKey)
    : crypto.Restorable cipher key peerKey := by
  cases crypto with
  | none => exact uses
  | cbc ctxLocal ctxRemote => exact uses
  | gcm ctxLocal ctxRemote => exact uses
  | chacha ctxLocal ctxRemote => exact uses.1

/-- The keys a context exports give an importer its ciphers, its own key first. -/
def TLSContext.Keyed (context : TLSContext lib) : Prop :=
  let keys := context.exportableKeys.bytes
  let half := keyLength context.cipher
  keys.length = half + half
  ∧ context.crypto.Restorable context.cipher (keys.take half) ((keys.drop half).take half)

/-- How many bytes of the MAC unions matter. -/
def TLSContext.usedMac (context : TLSContext lib) : Nat :=
  match context.crypto with
  | .gcm .. => tlsAesGcmIvLength
  | .chacha .. => tlsChacha20IvLength
  | .cbc .. | .none => macLength context.cipher

/-- What an import makes of an exported context: the session, without the master key. -/
def TLSContext.carried (context : TLSContext lib) : TLSContext lib :=
  { context with
    cipherSpecSet := 1
    exportable := 1
    localMac :=
      overlay (Vector.replicate 48 0) (context.localMac.toList.take context.usedMac)
    remoteMac :=
      overlay (Vector.replicate 48 0) (context.remoteMac.toList.take context.usedMac)
    masterKey := .empty 32
    dtlsEpochLocal := if context.dtls ≠ 0 then context.dtlsEpochLocal else 0
    dtlsEpochRemote := if context.dtls ≠ 0 then context.dtlsEpochRemote else 0 }

/-- The header of the exported packet, with initialization vectors to be filled in. -/
def TLSContext.header (context : TLSContext lib) (ivLen : UInt8)
    (ivFits : ivLen.toNat ≤ tlsAesIvLength) (localIv remoteIv : Vector UInt8 ivLen.toNat)
    : Header where
  version := context.version
  connectionStatus := context.connectionStatus
  cipher := context.cipher
  server := if context.isChild ≠ 0 then 2 else context.isServer
  ivLen := ivLen
  ivFits := ivFits
  localIv := localIv
  remoteIv := remoteIv

def TLSContext.secrets (context : TLSContext lib) (macs : Macs) : Secrets where
  keys := context.exportableKeys
  macs := macs
  masterKey := .empty 16
  localSequenceNumber := context.localSequenceNumber
  remoteSequenceNumber := context.remoteSequenceNumber

def TLSContext.dtlsSection (context : TLSContext lib) : Dtls :=
  if some_ : context.dtls ≠ 0 then
    .epochs context.dtls some_ context.dtlsEpochLocal context.dtlsEpochRemote
  else .none

def bufferSection (buffer : Bytes) : Bytes := be32 (UInt32.ofNat buffer.length) ++ buffer

/-- The sections behind the sequence numbers. -/
def TLSContext.closing (context : TLSContext lib) : Bytes :=
  bufferSection context.tlsBuffer.bytes
    ++ (bufferSection context.messageBuffer.bytes
      ++ (bufferSection context.applicationBuffer.bytes ++ context.dtlsSection.bytes))

/-- `tls_packet_update` writes the size of the content into the two bytes that
`tls_create_packet` left for it.
-/
theorem tlsPacketUpdate_create (type : UInt8) (version : UInt16) (content : Bytes)
    : tlsPacketUpdate (tlsCreatePacket type version ++ content)
      = [type] ++ (be16 version ++ (be16 (UInt16.ofNat content.length) ++ content)) := by
  obtain ⟨v₁, v₂, version_⟩ := List.length_eq_two.mp (length_be16 version)
  obtain ⟨l₁, l₂, length⟩ := List.length_eq_two.mp (length_be16 (UInt16.ofNat content.length))
  have size : (tlsCreatePacket type version ++ content).length - 5 = content.length := by
    simp [tlsCreatePacket]
    omega
  rw [tlsPacketUpdate, size, length, tlsCreatePacket, version_]
  rfl

/-- The exporter's DTLS section is that of `dtlsSection`, by cases on the DTLS flag. -/
theorem exportDtls_eq (context : TLSContext lib) (packet : TLSPacket)
    : exportDtls context packet = packet ++ context.dtlsSection.bytes := by
  unfold exportDtls TLSContext.dtlsSection
  split
  case isTrue => simp [tlsPacketUint8, tlsPacketUint16, tlsPacketAppend, Dtls.bytes]
  case isFalse zero =>
    obtain zero : context.dtls = 0 := by simpa using zero
    simp [tlsPacketUint8, tlsPacketAppend, Dtls.bytes, zero]

/-- The packet in sections, from the ones that depend on the cipher. -/
theorem exportPacket_eq {context : TLSContext lib} {ivLen : UInt8}
    {ivFits : ivLen.toNat ≤ tlsAesIvLength} {localIv remoteIv : Vector UInt8 ivLen.toNat}
    {macs : Macs}
    (ivs : ∀ packet, exportIvs context packet
      = packet ++ ([ivLen] ++ (localIv.toList ++ remoteIv.toList)))
    (macs_ : ∀ packet, exportMacs context packet = packet ++ macs.bytes)
    : exportPacket context true
      = (context.header ivLen ivFits localIv remoteIv).around
          ((context.secrets macs).bytes ++ context.closing) := by
  have sections : exportPacket context true
      = tlsPacketUpdate (tlsCreatePacket tlsSerializedObject context.version
          ++ ((context.header ivLen ivFits localIv remoteIv).fields
            ++ ((context.secrets macs).bytes ++ context.closing))) := by
    simp [exportPacket, ivs, macs_, exportDtls_eq, exportMasterKey, tlsPacketBuffer,
      tlsPacketUint8, tlsPacketUint16, tlsPacketUint32, tlsPacketAppend, Header.fields,
      TLSContext.header, Secrets.bytes, TLSContext.secrets, Counted.empty, bufferSection,
      TLSContext.closing]
  rw [sections, tlsPacketUpdate_create, Header.around, Header.opening, List.length_append]
  simp only [List.append_assoc]
  rfl

/-- A server as `tls_create_context` or `tls_accept` makes it. -/
def TLSContext.Server (context : TLSContext lib) : Prop :=
  context.isServer = 1 ∧ (context.isChild = 0 ∨ context.isChild = 1)

/-- What a context is after its header and its secrets, as far as the cipher leaves it open. -/
def TLSContext.begun (context : TLSContext lib) (crypto : Crypto lib)
    (localMac remoteMac : Vector UInt8 48)
    : TLSContext lib :=
  { tlsCreateContext lib 1 tlsV12 with
    version := context.version
    cipher := context.cipher
    isChild := context.isChild
    connectionStatus := context.connectionStatus
    exportable := 1
    exportableKeys := context.exportableKeys
    crypto := crypto
    localMac := localMac
    remoteMac := remoteMac
    localSequenceNumber := context.localSequenceNumber
    remoteSequenceNumber := context.remoteSequenceNumber }

/-- The closing sections are three counted buffers and the DTLS section. -/
theorem length_closing (context : TLSContext lib)
    : context.closing.length = 12 + context.tlsBuffer.bytes.length
        + context.messageBuffer.bytes.length + context.applicationBuffer.bytes.length
        + context.dtlsSection.bytes.length := by
  simp only [TLSContext.closing, bufferSection, List.length_append, length_be32]
  omega

/-- The secrets are the exported keys, the MACs and nineteen bytes of counts and numbers. -/
theorem length_secrets (context : TLSContext lib) (macs : Macs)
    : (context.secrets macs).bytes.length
        = 19 + context.exportableKeys.bytes.length + macs.bytes.length := by
  simp only [TLSContext.secrets, Secrets.bytes, Counted.empty, List.length_append, length_be16,
    length_be64, List.length_singleton, List.length_nil]
  omega

/-- A buffer that was empty becomes the one that was sent. -/
theorem received_empty {buffer : Counted 32} (small : buffer.bytes.length < 2 ^ 31)
    : Sent.received ⟨buffer.bytes, small⟩ (.empty 32) = buffer := by
  unfold Sent.received
  split
  case isTrue empty => exact Counted.ext empty.symm
  case isFalse => rfl

/-- Installing the DTLS section gives a fresh context the flag, and the epochs where the flag
is set.
-/
theorem dtlsSection_install (context : TLSContext lib) {c : TLSContext lib}
    (epochLocal : c.dtlsEpochLocal = 0) (epochRemote : c.dtlsEpochRemote = 0)
    : context.dtlsSection.install c
      = { c with
          dtls := context.dtls
          dtlsEpochLocal := if context.dtls ≠ 0 then context.dtlsEpochLocal else 0
          dtlsEpochRemote := if context.dtls ≠ 0 then context.dtlsEpochRemote else 0 } := by
  unfold TLSContext.dtlsSection
  split
  case isTrue => simp only [Dtls.install]
  case isFalse zero =>
    have zero' : context.dtls = 0 := by simpa using zero
    simp [Dtls.install, zero', epochLocal, epochRemote]

/-- Importing the packet of a server gives its session, with the ciphers of the packet. -/
theorem import_exportPacket {context : TLSContext lib} {ivLen : UInt8}
    {ivFits : ivLen.toNat ≤ tlsAesIvLength} {localIv remoteIv : Vector UInt8 ivLen.toNat}
    {macs : Macs} {stack : Stack} {crypto : Crypto lib} {localMac remoteMac : Vector UInt8 48}
    (sound : context.criticalError = 0) (server : context.Server)
    (ivs : ∀ packet, exportIvs context packet
      = packet ++ ([ivLen] ++ (localIv.toList ++ remoteIv.toList)))
    (macs_ : ∀ packet, exportMacs context packet = packet ++ macs.bytes)
    (suits : macs.Suits context.cipher)
    (long : 32 ≤ context.exportableKeys.bytes.length)
    (small : (exportPacket context true).length ≤ 0xffff)
    (restored : Saved.installSecrets (context.header ivLen ivFits localIv remoteIv)
      (context.secrets macs) (tlsCreateContext lib 1 tlsV12) stack
      = some (context.begun crypto localMac remoteMac))
    : tlsImportContext2 (tlsCreateContext lib 1 tlsV12) stack (exportPacket context true)
      = .ok { context.carried with
          crypto := crypto, localMac := localMac, remoteMac := remoteMac } := by
  have packet : exportPacket context true
      = (context.header ivLen ivFits localIv remoteIv).around
          ((context.secrets macs).bytes ++ context.closing) :=
    exportPacket_eq ivs macs_
  have size : (exportPacket context true).length
      = 5 + ((context.header ivLen ivFits localIv remoteIv).fields.length
        + ((context.secrets macs).bytes.length + context.closing.length)) := by
    rw [packet, Header.length_around, List.length_append]
  rw [Header.length_fields, length_secrets, length_closing] at size
  have tlsBuffer : context.tlsBuffer.bytes.length < 2 ^ 31 := by omega
  have messageBuffer : context.messageBuffer.bytes.length < 2 ^ 31 := by omega
  have applicationBuffer : context.applicationBuffer.bytes.length < 2 ^ 31 := by omega
  have some_ : 0 < macs.bytes.length := by cases macs <;> simp [Macs.bytes]
  have some' : 0 < context.dtlsSection.bytes.length := by
    cases context.dtlsSection <;> simp [Dtls.bytes]
  refine import_iff.mpr ⟨⟨context.header ivLen ivFits localIv remoteIv, context.secrets macs,
    suits, ⟨context.tlsBuffer.bytes, tlsBuffer⟩, ⟨context.messageBuffer.bytes, messageBuffer⟩,
    ⟨context.applicationBuffer.bytes, applicationBuffer⟩, context.dtlsSection⟩, [], ?_, by omega,
    by omega, ?_⟩
  · rw [packet, Saved.bytes, List.append_nil]
    rfl
  · simp only [Saved.install, restored, Option.map_some, Option.some.injEq]
    rw [dtlsSection_install _ rfl rfl]
    simp only [TLSContext.begun, tlsCreateContext, received_empty, TLSContext.carried, sound,
      server.1]

/-- Both halves of the exported keys are found in the array they are copied to. -/
theorem keys_in_temp (stack : Stack) {keys : Counted 8} {half : Nat}
    (length : keys.bytes.length = half + half)
    : (overlay stack.temp keys.bytes).toList.take half = keys.bytes.take half
      ∧ ((overlay stack.temp keys.bytes).toList.drop half).take half
        = (keys.bytes.drop half).take half := by
  have small := keys.small
  rw [toList_overlay _ (by omega)]
  constructor
  · rw [List.take_append_of_le_length (by omega)]
  · rw [List.drop_append_of_le_length (by omega), List.take_append_of_le_length (by simp; omega)]

/-- The header of a server's packet makes a fresh server context the exporter's, by cases on
whether it was accepted from a listening context.
-/
theorem header_install {context : TLSContext lib} {ivLen : UInt8}
    {ivFits : ivLen.toNat ≤ tlsAesIvLength} {localIv remoteIv : Vector UInt8 ivLen.toNat}
    (server : context.Server)
    : (context.header ivLen ivFits localIv remoteIv).install (tlsCreateContext lib 1 tlsV12)
      = { tlsCreateContext lib 1 tlsV12 with
          version := context.version
          connectionStatus := context.connectionStatus
          cipher := context.cipher
          isChild := context.isChild } := by
  obtain ⟨isServer, isChild | isChild⟩ := server
    <;> simp [Header.install, TLSContext.header, tlsCreateContext, isServer, isChild]

/-- The ciphers that the importer makes for a server. -/
def TLSContext.created (context : TLSContext lib) (stack : Stack)
    (localIv remoteIv : Vector UInt8 16)
    : Option (Crypto lib) :=
  let temp := (overlay stack.temp context.exportableKeys.bytes).toList
  let half := context.exportableKeys.bytes.length / 2
  cryptoCreate context.cipher half temp localIv (temp.drop half) remoteIv

/-- A MAC union after its initialization vector is in. -/
def ivMac (cipher : UInt16) (ivLen : Nat) (iv : Vector UInt8 16) (mac : Vector UInt8 48)
    : Vector UInt8 48 :=
  if isAead cipher = 2 then overlay mac (iv.toList.take (min ivLen tlsChacha20IvLength))
  else if isAead cipher ≠ 0 then overlay mac (iv.toList.take (min ivLen tlsAesGcmIvLength))
  else mac

/-- The initialization vectors only go into the two MAC unions, by cases on the kind of cipher.
-/
theorem installIvs_eq (context : TLSContext lib) (ivLen : Nat)
    (localIv remoteIv : Vector UInt8 16)
    : installIvs context ivLen localIv remoteIv
      = { context with
          localMac := ivMac context.cipher ivLen localIv context.localMac
          remoteMac := ivMac context.cipher ivLen remoteIv context.remoteMac } := by
  unfold installIvs ivMac
  split
  · rfl
  · split <;> rfl

/-- Where the ciphers can be made, the secrets give a fresh server the session with these
ciphers and the vectors in its MAC unions, section by section.
-/
theorem installSecrets_eq {context : TLSContext lib} {ivLen : UInt8}
    {ivFits : ivLen.toNat ≤ tlsAesIvLength} {localIv remoteIv : Vector UInt8 ivLen.toNat}
    {macs : Macs} {stack : Stack} {crypto : Crypto lib} (server : context.Server)
    (created : context.created stack (overlay stack.localIv localIv.toList)
      (overlay stack.remoteIv remoteIv.toList) = some crypto)
    : Saved.installSecrets (context.header ivLen ivFits localIv remoteIv) (context.secrets macs)
        (tlsCreateContext lib 1 tlsV12) stack
      = some (macs.install (context.begun crypto
          (ivMac context.cipher ivLen.toNat (overlay stack.localIv localIv.toList)
            (Vector.replicate 48 0))
          (ivMac context.cipher ivLen.toNat (overlay stack.remoteIv remoteIv.toList)
            (Vector.replicate 48 0)))) := by
  have made : cryptoCreate context.cipher (context.exportableKeys.bytes.length / 2)
      (overlay stack.temp context.exportableKeys.bytes).toList
      (overlay stack.localIv (context.header ivLen ivFits localIv remoteIv).localIv.toList)
      ((overlay stack.temp context.exportableKeys.bytes).toList.drop
        (context.exportableKeys.bytes.length / 2))
      (overlay stack.remoteIv (context.header ivLen ivFits localIv remoteIv).remoteIv.toList)
      = some crypto :=
    created
  have isServer : (1 : UInt8) ≠ 0 := by decide
  rw [Saved.installSecrets, header_install server]
  simp only [Secrets.install, Secrets.installExported, installIvs_eq, installKeys,
    TLSContext.secrets, tlsCreateContext, if_pos isServer, made, Option.map_some, Option.some.injEq]
  cases macs <;> rfl

/-- The start of a MAC union. -/
def startOf (n : UInt8) (mac : Vector UInt8 48) : Vector UInt8 n.toNat :=
  getRun n.toNat mac.toList 0

/-- The start of a MAC union is the prefix of its bytes. -/
theorem toList_startOf {n : UInt8} (mac : Vector UInt8 48) (fits : n.toNat ≤ 48)
    : (startOf n mac).toList = mac.toList.take n.toNat := by
  rw [startOf, toList_getRun (by simpa using fits), List.drop_zero]

/-- What an export and an import make of a context, whatever its cipher. -/
structure Restores (context : TLSContext lib) (stack : Stack) where
  ivLen : UInt8
  ivFits : ivLen.toNat ≤ tlsAesIvLength
  localIv : Vector UInt8 ivLen.toNat
  remoteIv : Vector UInt8 ivLen.toNat
  macs : Macs
  crypto : Crypto lib
  ivs (packet : TLSPacket)
    : exportIvs context packet = packet ++ ([ivLen] ++ (localIv.toList ++ remoteIv.toList))
  macs_ (packet : TLSPacket) : exportMacs context packet = packet ++ macs.bytes
  suits : macs.Suits context.cipher
  created
    : context.created stack (overlay stack.localIv localIv.toList)
        (overlay stack.remoteIv remoteIv.toList)
      = some crypto
  restored
    : macs.install (context.begun crypto
        (ivMac context.cipher ivLen.toNat (overlay stack.localIv localIv.toList)
          (Vector.replicate 48 0))
        (ivMac context.cipher ivLen.toNat (overlay stack.remoteIv remoteIv.toList)
          (Vector.replicate 48 0)))
      = context.begun context.crypto context.carried.localMac context.carried.remoteMac

/-- Importing the packet gives the carried context, once the sections that depend on the cipher
are restored: `installSecrets_eq` in `import_exportPacket`.
-/
theorem Restores.carried {context : TLSContext lib} {stack : Stack}
    (restores : Restores context stack) (sound : context.criticalError = 0)
    (server : context.Server) (long : 32 ≤ context.exportableKeys.bytes.length)
    (small : (exportPacket context true).length ≤ 0xffff)
    : tlsImportContext2 (tlsCreateContext lib 1 tlsV12) stack (exportPacket context true)
      = .ok context.carried := by
  have restored : Saved.installSecrets
      (context.header restores.ivLen restores.ivFits restores.localIv restores.remoteIv)
      (context.secrets restores.macs) (tlsCreateContext lib 1 tlsV12) stack
      = some (context.begun context.crypto context.carried.localMac context.carried.remoteMac) :=
    (installSecrets_eq server restores.created).trans (congrArg some restores.restored)
  exact import_exportPacket sound server restores.ivs restores.macs_ restores.suits long small
    restored

/-- Equally long initialization vectors are exported behind their length. -/
theorem exportIvs_eq {context : TLSContext lib} {n : UInt8}
    {localIv remoteIv : Vector UInt8 n.toNat}
    (ivs : context.ivs = (localIv.toList, remoteIv.toList)) (packet : TLSPacket)
    : exportIvs context packet = packet ++ ([n] ++ (localIv.toList ++ remoteIv.toList)) := by
  simp [exportIvs, ivs, tlsPacketUint8, tlsPacketAppend]

/-- The union of an AEAD cipher has its initialization vector again. -/
theorem ivMac_startOf {cipher : UInt16} {n : UInt8} {iv : Vector UInt8 16}
    {mac : Vector UInt8 48} (fits : n.toNat ≤ 16)
    (used : isAead cipher = 2 ∧ n.toNat = tlsChacha20IvLength
      ∨ isAead cipher = 1 ∧ n.toNat = tlsAesGcmIvLength)
    : ivMac cipher n.toNat (overlay iv (startOf n mac).toList) (Vector.replicate 48 0)
      = overlay (Vector.replicate 48 0) (mac.toList.take n.toNat) := by
  have start := take_overlay iv (by rwa [Vector.length_toList]) (startOf n mac).length_toList
  rw [toList_startOf mac (by omega)] at start ⊢
  unfold ivMac
  rcases used with ⟨chacha, length⟩ | ⟨gcm, length⟩
  · rw [if_pos chacha, ← length, Nat.min_self, start]
  · rw [if_neg (by omega), if_pos (by omega), ← length, Nat.min_self, start]

/-- A GCM session exports the first four bytes of both MAC unions. -/
theorem exportIvs_gcm {context : TLSContext lib} {ctxLocal ctxRemote : lib.Gcm}
    (crypto : context.crypto = .gcm ctxLocal ctxRemote) (packet : TLSPacket)
    : exportIvs context packet = packet ++ ([4]
        ++ ((startOf 4 context.localMac).toList ++ (startOf 4 context.remoteMac).toList)) := by
  refine exportIvs_eq ?_ packet
  rw [toList_startOf _ (by decide), toList_startOf _ (by decide), TLSContext.ivs, crypto]
  rfl

/-- A GCM session exports no MAC keys. -/
theorem exportMacs_gcm {context : TLSContext lib} {ctxLocal ctxRemote : lib.Gcm}
    (crypto : context.crypto = .gcm ctxLocal ctxRemote) (packet : TLSPacket)
    : exportMacs context packet = packet ++ Macs.none.bytes := by
  simp [exportMacs, crypto, tlsPacketUint8, tlsPacketAppend, Macs.bytes]

/-- The size of a GCM session does not depend on its sequence numbers. -/
theorem length_exportPacket_gcm {context : TLSContext lib} {ctxLocal ctxRemote : lib.Gcm}
    (crypto : context.crypto = .gcm ctxLocal ctxRemote)
    : (exportPacket context true).length
      = 39 + context.exportableKeys.bytes.length + context.closing.length := by
  have fits : (4 : UInt8).toNat ≤ tlsAesIvLength := by decide
  have packet : exportPacket context true = (context.header 4 fits _ _).around _ :=
    exportPacket_eq (exportIvs_gcm crypto) (exportMacs_gcm crypto)
  rw [packet, Header.length_around, Header.length_fields, List.length_append, length_secrets]
  change 5 + (6 + 4 + 4 + (19 + _ + 1 + _)) = _
  omega

/-- A GCM session is restored: its ciphers are made from both halves of the keys, and the
vectors are the starts of its MAC unions.
-/
theorem restores_gcm {context : TLSContext lib} {ctxLocal ctxRemote : lib.Gcm} (stack : Stack)
    (crypto : context.crypto = .gcm ctxLocal ctxRemote) (keyed : context.Keyed)
    : Nonempty (Restores context stack) := by
  simp only [TLSContext.Keyed, crypto, Crypto.Restorable, Crypto.Uses] at keyed
  obtain ⟨length, gcm, localKey, remoteKey⟩ := keyed
  have half : context.exportableKeys.bytes.length / 2 = keyLength context.cipher := by omega
  obtain ⟨localTemp, remoteTemp⟩ := keys_in_temp stack length
  refine ⟨⟨4, by decide, startOf 4 context.localMac, startOf 4 context.remoteMac, .none,
    .gcm ctxLocal ctxRemote, exportIvs_gcm crypto, exportMacs_gcm crypto, ?_, ?_, ?_⟩⟩
  · simp [Macs.Suits, gcm]
  · simp [TLSContext.created, cryptoCreate, gcm, half, localTemp, remoteTemp, localKey, remoteKey]
  · rw [ivMac_startOf (by decide) (Or.inr ⟨gcm, rfl⟩),
      ivMac_startOf (by decide) (Or.inr ⟨gcm, rfl⟩), crypto]
    simp only [Macs.install, TLSContext.carried, TLSContext.usedMac, crypto]
    rfl

/-- A ChaCha20 session is restored: its states travel in the MAC section, and the vectors are
the starts of its MAC unions.
-/
theorem restores_chacha {context : TLSContext lib} {ctxLocal ctxRemote : ChachaCtx}
    (stack : Stack) (crypto : context.crypto = .chacha ctxLocal ctxRemote) (keyed : context.Keyed)
    : Nonempty (Restores context stack) := by
  simp only [TLSContext.Keyed, crypto, Crypto.Restorable] at keyed
  obtain ⟨-, chacha⟩ := keyed
  have states : (⟨(chachaBytes ctxLocal ctxRemote).toArray,
      length_chachaBytes ctxLocal ctxRemote⟩ : Vector UInt8 256).toList
      = chachaBytes ctxLocal ctxRemote := rfl
  refine ⟨⟨12, by decide, startOf 12 context.localMac, startOf 12 context.remoteMac,
    .chacha ⟨(chachaBytes ctxLocal ctxRemote).toArray, length_chachaBytes ctxLocal ctxRemote⟩,
    _, exportIvs_eq ?_, ?_, chacha, if_pos chacha, ?_⟩⟩
  · rw [toList_startOf _ (by decide), toList_startOf _ (by decide), TLSContext.ivs, crypto]
    rfl
  · intro packet
    simp [exportMacs, crypto, tlsPacketUint8, tlsPacketAppend, Macs.bytes, chachaBytes]
  · rw [ivMac_startOf (by decide) (Or.inl ⟨chacha, rfl⟩),
      ivMac_startOf (by decide) (Or.inl ⟨chacha, rfl⟩), crypto]
    simp only [Macs.install, states, chachaStates_chachaBytes, TLSContext.carried,
      TLSContext.usedMac, crypto]
    rfl

/-- A MAC is at most as long as the array it is in, suite by suite. -/
theorem macLength_le (cipher : UInt16) : macLength cipher ≤ tlsMaxMacSize := by
  unfold macLength tlsMaxMacSize
  split
  · decide
  · split
    · decide
    · split <;> decide

/-- Copying no bytes leaves a field as it is. -/
theorem overlay_nil {n : Nat} (field : Vector UInt8 n) : overlay field [] = field := by
  apply Vector.toList_inj.mp
  rw [toList_overlay field (by simp)]
  rfl

/-- A CBC session is restored: its ciphers are made from the keys and the vectors they are at,
and its MAC keys, if the suite has any, from the MAC section.
-/
theorem restores_cbc {context : TLSContext lib} {ctxLocal ctxRemote : lib.Cbc} (stack : Stack)
    (crypto : context.crypto = .cbc ctxLocal ctxRemote) (keyed : context.Keyed)
    : Nonempty (Restores context stack) := by
  simp only [TLSContext.Keyed, crypto, Crypto.Restorable, Crypto.Uses] at keyed
  obtain ⟨length, cbc, localKey, remoteKey⟩ := keyed
  have half : context.exportableKeys.bytes.length / 2 = keyLength context.cipher := by omega
  obtain ⟨localTemp, remoteTemp⟩ := keys_in_temp stack length
  have le := macLength_le context.cipher
  have fits : (UInt8.ofNat (macLength context.cipher)).toNat = macLength context.cipher :=
    UInt8.toNat_ofNat_of_lt' (Nat.lt_of_le_of_lt le (by decide))
  -- half of the exported keys is each side's key, so the ciphers made again are the same
  have created : context.created stack (overlay stack.localIv (lib.cbcGetiv ctxLocal).toList)
      (overlay stack.remoteIv (lib.cbcGetiv ctxRemote).toList)
      = some (.cbc ctxLocal ctxRemote) := by
    simp [TLSContext.created, cryptoCreate, cbc, half, localTemp, remoteTemp, overlay_toList,
      localKey, remoteKey]
  have ivMac_cbc (n : Nat) (iv : Vector UInt8 16) (mac : Vector UInt8 48)
      : ivMac context.cipher n iv mac = mac := by
    simp [ivMac, cbc]
  have ivs : context.ivs = ((lib.cbcGetiv ctxLocal).toList, (lib.cbcGetiv ctxRemote).toList) := by
    rw [TLSContext.ivs, crypto]
  have used (mac : Vector UInt8 48)
      : (startOf (UInt8.ofNat (macLength context.cipher)) mac).toList
        = mac.toList.take (macLength context.cipher) :=
    (toList_startOf mac (Nat.le_trans (Nat.le_of_eq fits) le)).trans (by rw [fits])
  -- without a MAC the packet has a single zero in place of the two keys
  by_cases none_ : UInt8.ofNat (macLength context.cipher) = 0
  · have zero : macLength context.cipher = 0 := by rw [← fits, none_]; rfl
    refine ⟨⟨16, by decide, lib.cbcGetiv ctxLocal, lib.cbcGetiv ctxRemote, .none,
      .cbc ctxLocal ctxRemote, exportIvs_eq ivs, ?_, by simp [Macs.Suits, cbc], created, ?_⟩⟩
    · intro packet
      simp [exportMacs, crypto, zero, tlsPacketUint8, tlsPacketAppend, Macs.bytes]
    · rw [crypto]
      simp only [Macs.install, TLSContext.carried, TLSContext.usedMac, crypto, zero, List.take_zero,
        overlay_nil]
      rw [ivMac_cbc, ivMac_cbc]
  · refine ⟨⟨16, by decide, lib.cbcGetiv ctxLocal, lib.cbcGetiv ctxRemote,
      .keys (UInt8.ofNat (macLength context.cipher)) none_ (by omega)
        (startOf _ context.localMac) (startOf _ context.remoteMac),
      .cbc ctxLocal ctxRemote, exportIvs_eq ivs, ?_, trivial, created, ?_⟩⟩
    · intro packet
      simp [exportMacs, crypto, tlsPacketUint8, tlsPacketAppend, Macs.bytes, used]
    · rw [crypto]
      simp only [Macs.install, TLSContext.carried, TLSContext.usedMac, crypto, used]
      rw [ivMac_cbc, ivMac_cbc]
      rfl

/-- The keys of a session restore what depends on its cipher, by cases on the cipher. -/
theorem Keyed.restores {context : TLSContext lib} (keyed : context.Keyed) (stack : Stack)
    : Nonempty (Restores context stack) := by
  cases crypto : context.crypto with
  | none => simp [TLSContext.Keyed, crypto, Crypto.Restorable] at keyed
  | cbc ctxLocal ctxRemote => exact restores_cbc stack crypto keyed
  | gcm ctxLocal ctxRemote => exact restores_gcm stack crypto keyed
  | chacha ctxLocal ctxRemote => exact restores_chacha stack crypto keyed

/-- A suite has no key, or one of 16 or of 32 bytes. -/
theorem keyLength_eq (cipher : UInt16)
    : keyLength cipher = 0 ∨ keyLength cipher = 16 ∨ keyLength cipher = 32 := by
  unfold keyLength
  split
  · exact Or.inr (Or.inl rfl)
  · split
    · exact Or.inr (Or.inr rfl)
    · exact Or.inl rfl

/-- Exported keys that are not empty are two keys of a suite, so at least 32 bytes. -/
theorem Keyed.long {context : TLSContext lib} (keyed : context.Keyed)
    (some_ : context.exportableKeys.bytes ≠ [])
    : 32 ≤ context.exportableKeys.bytes.length := by
  have length := keyed.1
  have positive := List.length_pos_iff.mpr some_
  have eq := keyLength_eq context.cipher
  omega

/-- What a cipher uses of a MAC union is inside it, by cases on the cipher. -/
theorem usedMac_le (context : TLSContext lib) : context.usedMac ≤ 48 := by
  unfold TLSContext.usedMac
  split
  · decide
  · decide
  · exact macLength_le _
  · exact macLength_le _

/-- What matters of a MAC union is carried over. -/
theorem take_carried (context : TLSContext lib) (mac : Vector UInt8 48)
    : (overlay (Vector.replicate 48 0) (mac.toList.take context.usedMac)).toList.take
        context.usedMac
      = mac.toList.take context.usedMac := by
  have le := usedMac_le context
  have length : (mac.toList.take context.usedMac).length = context.usedMac := by
    rw [List.length_take, Vector.length_toList, Nat.min_eq_left le]
  exact take_overlay _ (by omega) length

/-- The carried context exports the same bytes: the packet only depends on the parts that are
carried, which is shown section by section.
-/
theorem exportPacket_carried (context : TLSContext lib)
    : exportPacket context.carried true = exportPacket context true := by
  have localMac : context.carried.localMac.toList.take context.usedMac
      = context.localMac.toList.take context.usedMac := take_carried context context.localMac
  have remoteMac : context.carried.remoteMac.toList.take context.usedMac
      = context.remoteMac.toList.take context.usedMac := take_carried context context.remoteMac
  have ivs : context.carried.ivs = context.ivs := by
    have same : context.carried.crypto = context.crypto := rfl
    unfold TLSContext.ivs
    unfold TLSContext.usedMac at localMac remoteMac
    rw [same]
    cases crypto : context.crypto <;> simp only [crypto] at localMac remoteMac
    case none | cbc => rfl
    case gcm | chacha => rw [localMac, remoteMac]
  have macs (packet : TLSPacket)
      : exportMacs context.carried packet = exportMacs context packet := by
    have same : context.carried.crypto = context.crypto := rfl
    have cipher : context.carried.cipher = context.cipher := rfl
    unfold exportMacs
    unfold TLSContext.usedMac at localMac remoteMac
    rw [same, cipher]
    cases crypto : context.crypto <;> simp only [crypto] at localMac remoteMac
    case gcm | chacha => rfl
    case none | cbc => simp only [localMac, remoteMac]
  have dtls (packet : TLSPacket)
      : exportDtls context.carried packet = exportDtls context packet := by
    have same : context.carried.dtls = context.dtls := rfl
    unfold exportDtls
    rw [same]
    split
    case isTrue some_ => simp only [TLSContext.carried, if_pos some_]
    case isFalse => rfl
  -- every other field of the packet is read from a field that is carried as it is
  simp only [exportPacket, exportIvs, ivs, macs, dtls]
  rfl

/-- A server's session that fits into the 65535 bytes of an export. -/
structure Portable (context : TLSContext lib) : Prop where
  exportable : context.Exportable
  keyed : context.Keyed
  server : context.Server
  small : (exportPacket context true).length ≤ 0xffff

namespace Portable

variable {context : TLSContext lib}

/-- The packet of a portable session is imported as its carried context, whatever the stack
held.
-/
theorem imported (portable : Portable context) (stack : Stack)
    : tlsImportContext2 (tlsCreateContext lib 1 tlsV12) stack (exportPacket context true)
      = .ok context.carried := by
  obtain ⟨restores⟩ := Keyed.restores portable.keyed stack
  have keys := portable.exportable.2.2.2.1
  exact restores.carried portable.exportable.1 portable.server (Keyed.long portable.keyed keys)
    portable.small

/-- The importer of a handoff gets the carried context out of the packet. -/
theorem importTls_eq (portable : Portable context) (stack : Stack)
    : importTls lib stack (exportPacket context true) = .ok context.carried := by
  simp only [importTls, tlsImport, portable.imported, Except.map, tlsMakeExportable]
  rfl

/-- `tls_export` gives the whole packet of a portable session: it fits into the buffer, and its
length is not mistaken for an error.
-/
theorem tlsExport_eq (portable : Portable context)
    : tlsExport context = .state (exportPacket context true) := by
  have long : 64 ≤ (exportPacket context true).length := by
    obtain ⟨_, _, _, long, _⟩ := import_iff.mp
      (portable.imported ⟨Vector.replicate 16 0, Vector.replicate 16 0, Vector.replicate 255 0⟩)
    exact long
  have small := portable.small
  have size : (UInt32.ofNat (exportPacket context true).length).toNat
      = (exportPacket context true).length :=
    UInt32.toNat_ofNat_of_lt' (by change _ < 2 ^ 32; omega)
  have ret : tlsExportContext context 0xffff true
      = (((exportPacket context true).length : Int), exportPacket context true) := by
    have fits : ¬ (0xffff : UInt32) < UInt32.ofNat (exportPacket context true).length := by
      rw [UInt32.lt_iff_toNat_lt, size]
      exact Nat.not_lt.mpr small
    simp only [tlsExportContext, if_pos portable.exportable, if_neg fits]
    rw [toInt_toInt32, size, if_pos (by omega)]
  simp only [tlsExport, ret]
  rw [if_neg (by omega), if_neg (by omega), Int.toNat_natCast, List.take_length]

/-- A carried session can be handed on. -/
theorem carried (portable : Portable context) : Portable context.carried where
  exportable :=
    have ⟨sound, status, _, keys, created⟩ := portable.exportable
    ⟨sound, status, (by decide : (1 : UInt8) ≠ 0), keys, created⟩
  keyed := portable.keyed
  server := portable.server
  small := by
    rw [exportPacket_carried]
    exact portable.small

end Portable

/-- A server's session is carried over by an export and an import, whatever the stack held, and
its next export has the same bytes.
-/
theorem session_carried {context : TLSContext lib} (portable : Portable context)
    : ∃ ex, tlsExport context = .state ex
        ∧ (∀ stack, importTls lib stack ex = .ok context.carried)
        ∧ tlsExport context.carried = .state ex := by
  refine ⟨exportPacket context true, portable.tlsExport_eq, portable.importTls_eq, ?_⟩
  rw [portable.carried.tlsExport_eq, exportPacket_carried]

end Export

/-- Ciphers that are their keys. -/
def sampleLib : CipherLib where
  Cbc := Vector UInt8 16 × Bytes
  Gcm := Bytes
  cbcStart iv key := some (iv, key)
  cbcGetiv := Prod.fst
  gcmInit key := some key
  getiv_start started := by
    obtain rfl := Option.some.inj started
    rfl

def sampleKeys : Bytes := List.replicate 16 3 ++ List.replicate 16 4

/-- A client of a TLS server after its handshake, with AES-128-GCM. -/
def sampleContext : TLSContext sampleLib :=
  { tlsCreateContext sampleLib 1 tlsV12 with
    cipher := 0xc02f
    isChild := 1
    connectionStatus := 0xff
    exportable := 1
    exportableKeys := ⟨sampleKeys, by decide⟩
    crypto := .gcm (List.replicate 16 3) (List.replicate 16 4)
    localMac := Vector.replicate 48 5
    remoteMac := Vector.replicate 48 6
    localSequenceNumber := 1
    remoteSequenceNumber := 1 }

/-- The session is portable, each condition by evaluation. -/
theorem portable_sample : Portable sampleContext where
  exportable := by decide
  keyed := ⟨rfl, rfl, rfl, rfl⟩
  server := ⟨rfl, Or.inr rfl⟩
  small := by
    rw [length_exportPacket_gcm rfl]
    decide

/-- The session is carried over by an export and an import. -/
theorem session_carried_sample
    : ∃ ex, tlsExport sampleContext = .state ex
        ∧ (∀ stack, importTls sampleLib stack ex = .ok sampleContext.carried)
        ∧ tlsExport sampleContext.carried = .state ex :=
  session_carried portable_sample

end PrismHTTP.Tls
