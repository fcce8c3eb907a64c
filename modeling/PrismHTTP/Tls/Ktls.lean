import PrismHTTP.Tls.RoundTrip
import Mathlib.Data.List.Nodup

/-! TLS records sealed by the kernel, across hand-offs of the connection.
While the kernel seals the records it alone knows how many there were, so a hand-off asks for
both sequence numbers, exports the context and attaches the importer's copy to a new socket.
-/

namespace PrismHTTP.Tls
open ByteLayout BigEndian CursorParsing

/-- A number in network order, in its own bytes. -/
def htonll (n : UInt64) : Vector UInt8 8 := ⟨(be64 n).toArray, by simp⟩

/-- A record number survives the order of the network. -/
@[simp] theorem ntohll_htonll (n : UInt64) : ntohll (htonll n).toList 0 = n := by
  have bytes : (htonll n).toList = be64 n := rfl
  rw [ntohll, bytes, List.drop_zero, List.take_of_length_le (by simp), ofNat_value_be64]

/-- Different record numbers have different bytes, since they can be read back. -/
theorem htonll_injective {m n : UInt64} (same : htonll m = htonll n) : m = n := by
  rw [← ntohll_htonll m, same, ntohll_htonll]

/-- `struct tls12_crypto_info_aes_gcm_128`, for TLS 1.2. -/
@[ext] structure CryptoInfo where
  iv : Vector UInt8 8
  key : Vector UInt8 16
  salt : Vector UInt8 4
  recSeq : Vector UInt8 8

/-- Both counters go on by one. -/
def CryptoInfo.next (info : CryptoInfo) : CryptoInfo :=
  { info with
    iv := htonll (ntohll info.iv.toList 0 + 1)
    recSeq := htonll (ntohll info.recSeq.toList 0 + 1) }

/-- The kernel's TLS sockets: what is set for a direction can be asked for, and a record
advances its own direction only, while its sequence number has a next one.
-/
structure TlsKernel where
  Sock : Type
  attach (tx rx : CryptoInfo) : Sock
  txInfo : Sock → CryptoInfo
  rxInfo : Sock → CryptoInfo
  send : Sock → Sock
  receive : Sock → Sock
  txInfo_attach (tx rx : CryptoInfo) : txInfo (attach tx rx) = tx
  rxInfo_attach (tx rx : CryptoInfo) : rxInfo (attach tx rx) = rx
  txInfo_send {sock : Sock} (more : (ntohll (txInfo sock).recSeq.toList 0).toNat + 1 < 2 ^ 64)
    : txInfo (send sock) = (txInfo sock).next
  rxInfo_send (sock : Sock) : rxInfo (send sock) = rxInfo sock
  txInfo_receive (sock : Sock) : txInfo (receive sock) = txInfo sock
  rxInfo_receive {sock : Sock}
    (more : (ntohll (rxInfo sock).recSeq.toList 0).toNat + 1 < 2 ^ 64)
    : rxInfo (receive sock) = (rxInfo sock).next

inductive KtlsError where
  | genericError
  | featureNotSupported
  deriving DecidableEq

section Ktls

variable {lib : CipherLib} {kernel : TlsKernel}

/-- What a direction is set to: its IV starts as its sequence number. -/
def cryptoInfo (sequenceNumber : UInt64) (keys : Bytes) (at_ : Nat) (mac : Vector UInt8 48)
    : CryptoInfo where
  iv := htonll sequenceNumber
  recSeq := htonll sequenceNumber
  key := getRun 16 keys at_
  salt := getRun 4 mac.toList 0

def TLSContext.txInfo (context : TLSContext lib) (sequenceNumber : UInt64) : CryptoInfo :=
  cryptoInfo sequenceNumber context.exportableKeys.bytes 0 context.localMac

def TLSContext.rxInfo (context : TLSContext lib) (sequenceNumber : UInt64) : CryptoInfo :=
  cryptoInfo sequenceNumber context.exportableKeys.bytes 16 context.remoteMac

/-- `tls_make_ktls`, on a socket without TLS. -/
def tlsMakeKtls (kernel : TlsKernel) (context : TLSContext lib)
    : Except KtlsError kernel.Sock :=
  if context.criticalError ≠ 0 ∨ context.connectionStatus ≠ 0xff ∨ context.crypto.created = 0 then
    .error .genericError
  else if context.exportable = 0 ∨ context.exportableKeys.bytes = [] then .error .genericError
  else if context.version ∉ [tlsV12, dtlsV12, tlsV13, dtlsV13] then .error .featureNotSupported
  else if context.cipher ∉ [0x009c, 0x009e, 0xc02f, 0xc02b] then .error .featureNotSupported
  else if context.exportableKeys.bytes.length < 16 * 2 then .error .genericError
  else
    .ok (kernel.attach (context.txInfo context.localSequenceNumber)
      (context.rxInfo context.remoteSequenceNumber))

def TLSContext.numbered (context : TLSContext lib) (localNumber remoteNumber : UInt64)
    : TLSContext lib :=
  { context with localSequenceNumber := localNumber, remoteSequenceNumber := remoteNumber }

/-- `tls_unmake_ktls`. -/
def tlsUnmakeKtls (context : TLSContext lib) (sock : kernel.Sock) : TLSContext lib :=
  context.numbered (ntohll (kernel.txInfo sock).recSeq.toList 0)
    (ntohll (kernel.rxInfo sock).recSeq.toList 0)

/-- A server's end of a TLS connection. -/
structure Endpoint (lib : CipherLib) (kernel : TlsKernel) where
  context : TLSContext lib
  sock : kernel.Sock

/-- `export_tls` in one process, then `import_tls` in another; nothing where an assertion
fails.
-/
def handOff (endpoint : Endpoint lib kernel) (stack : Stack) : Option (Endpoint lib kernel) :=
  match tlsExport (tlsUnmakeKtls endpoint.context endpoint.sock) with
  | .state ex =>
      match importTls lib stack ex with
      | .ok context =>
          match tlsMakeKtls kernel context with
          | .ok sock => some ⟨context, sock⟩
          | .error _ => none
      | .error _ => none
  | .einval | .lengthError => none

inductive Event where
  | send
  | receive
  | handOff (stack : Stack)

def Event.isRecord : Event → Bool
  | send | receive => true
  | handOff _ => false

def sends : List Event → Nat
  | [] => 0
  | .send :: events => sends events + 1
  | .receive :: events | .handOff _ :: events => sends events

def receives : List Event → Nat
  | [] => 0
  | .receive :: events => receives events + 1
  | .send :: events | .handOff _ :: events => receives events

/-- What must not be used for two records: a key with a nonce. -/
@[ext] structure Seal where
  key : Vector UInt8 16
  salt : Vector UInt8 4
  iv : Vector UInt8 8
  deriving DecidableEq

def CryptoInfo.seal (info : CryptoInfo) : Seal := ⟨info.key, info.salt, info.iv⟩

/-- A run of the connection, with the seals of the records sent. -/
def run : Endpoint lib kernel → List Event → Option (Endpoint lib kernel × List Seal)
  | endpoint, [] => some (endpoint, [])
  | endpoint, .send :: events =>
      (run { endpoint with sock := kernel.send endpoint.sock } events).map fun (last, seals) =>
        (last, (kernel.txInfo endpoint.sock).seal :: seals)
  | endpoint, .receive :: events =>
      run { endpoint with sock := kernel.receive endpoint.sock } events
  | endpoint, .handOff stack :: events =>
      match handOff endpoint stack with
      | some next => run next events
      | none => none

/-- A session that the kernel can take over and that can be handed on. -/
structure Ready (context : TLSContext lib) : Prop where
  portable : Portable context
  version : context.version ∈ [tlsV12, dtlsV12, tlsV13, dtlsV13]
  cipher : context.cipher ∈ [0x009c, 0x009e, 0xc02f, 0xc02b]

namespace Ready

variable {context : TLSContext lib}

/-- A session that is ready for the kernel has GCM ciphers, by cases on its cipher. -/
theorem gcm (ready : Ready context)
    : ∃ ctxLocal ctxRemote, context.crypto = .gcm ctxLocal ctxRemote := by
  have aead : isAead context.cipher = 1 := by
    have suites := ready.cipher
    simp only [List.mem_cons, List.not_mem_nil, or_false] at suites
    rcases suites with suite | suite | suite | suite <;> rw [suite] <;> rfl
  have keyed := ready.portable.keyed
  cases crypto : context.crypto with
  | none => simp [TLSContext.Keyed, crypto, Crypto.Restorable] at keyed
  | cbc ctxLocal ctxRemote =>
      simp [TLSContext.Keyed, crypto, Crypto.Restorable, Crypto.Uses, aead] at keyed
  | gcm ctxLocal ctxRemote => exact ⟨ctxLocal, ctxRemote, rfl⟩
  | chacha ctxLocal ctxRemote => simp [TLSContext.Keyed, crypto, Crypto.Restorable, aead] at keyed

/-- The kernel takes it over. -/
theorem tlsMakeKtls_eq (ready : Ready context)
    : tlsMakeKtls kernel context
      = .ok (kernel.attach (context.txInfo context.localSequenceNumber)
          (context.rxInfo context.remoteSequenceNumber)) := by
  obtain ⟨sound, status, flag, keys, created⟩ := ready.portable.exportable
  have long := Keyed.long ready.portable.keyed keys
  unfold tlsMakeKtls
  rw [if_neg (by simp [sound, status, created]), if_neg (by simp [flag, keys]),
    if_neg (not_not.mpr ready.version), if_neg (not_not.mpr ready.cipher), if_neg (by omega)]

/-- A carried session is ready again: its suite and both numbers are those it had. -/
theorem carried (ready : Ready context) : Ready context.carried where
  portable := ready.portable.carried
  version := ready.version
  cipher := ready.cipher

/-- Other sequence numbers do not make it longer. -/
theorem numbered (ready : Ready context) (localNumber remoteNumber : UInt64)
    : Ready (context.numbered localNumber remoteNumber) := by
  obtain ⟨ctxLocal, ctxRemote, crypto⟩ := ready.gcm
  refine ⟨⟨ready.portable.exportable, ready.portable.keyed, ready.portable.server, ?_⟩,
    ready.version, ready.cipher⟩
  have small := ready.portable.small
  have same : (context.numbered localNumber remoteNumber).crypto = .gcm ctxLocal ctxRemote :=
    crypto
  rw [length_exportPacket_gcm crypto] at small
  rw [length_exportPacket_gcm same]
  exact small

/-- The salts are among what is carried over. -/
theorem salt_carried (ready : Ready context) (mac : Vector UInt8 48)
    : getRun 4 (overlay (Vector.replicate 48 0) (mac.toList.take context.usedMac)).toList 0
      = getRun 4 mac.toList 0 := by
  obtain ⟨ctxLocal, ctxRemote, crypto⟩ := ready.gcm
  have used : context.usedMac = 4 := by simp [TLSContext.usedMac, crypto, tlsAesGcmIvLength]
  have taken := take_carried context mac
  rw [used] at taken ⊢
  apply Vector.toList_inj.mp
  rw [toList_getRun (by simp), toList_getRun (by simp), List.drop_zero, List.drop_zero]
  exact taken

/-- A carried session gives the kernel the same key material for sending. -/
theorem txInfo_carried (ready : Ready context) (number : UInt64)
    : context.carried.txInfo number = context.txInfo number := by
  have salt := ready.salt_carried context.localMac
  simp only [TLSContext.txInfo, cryptoInfo, TLSContext.carried, salt]

/-- A carried session gives the kernel the same key material for receiving. -/
theorem rxInfo_carried (ready : Ready context) (number : UInt64)
    : context.carried.rxInfo number = context.rxInfo number := by
  have salt := ready.salt_carried context.remoteMac
  simp only [TLSContext.rxInfo, cryptoInfo, TLSContext.carried, salt]

end Ready

/-- The kernel seals with the keys of the given session, from the given numbers on. -/
structure Attached (session : TLSContext lib) (sent received : UInt64)
    (endpoint : Endpoint lib kernel)
    : Prop where
  ready : Ready endpoint.context
  tx (number : UInt64) : endpoint.context.txInfo number = session.txInfo number
  rx (number : UInt64) : endpoint.context.rxInfo number = session.rxInfo number
  sent_ : kernel.txInfo endpoint.sock = session.txInfo sent
  received_ : kernel.rxInfo endpoint.sock = session.rxInfo received

/-- The record number of the key material for sending is the one it was made for. -/
@[simp] theorem number_txInfo (context : TLSContext lib) (number : UInt64)
    : ntohll (context.txInfo number).recSeq.toList 0 = number := by
  simp [TLSContext.txInfo, cryptoInfo]

/-- The record number of the key material for receiving is the one it was made for. -/
@[simp] theorem number_rxInfo (context : TLSContext lib) (number : UInt64)
    : ntohll (context.rxInfo number).recSeq.toList 0 = number := by
  simp [TLSContext.rxInfo, cryptoInfo]

/-- The kernel's material after a sent record is that of the next number. -/
theorem next_txInfo (context : TLSContext lib) (number : UInt64)
    : (context.txInfo number).next = context.txInfo (number + 1) := by
  simp [CryptoInfo.next, TLSContext.txInfo, cryptoInfo]

/-- The kernel's material after a received record is that of the next number. -/
theorem next_rxInfo (context : TLSContext lib) (number : UInt64)
    : (context.rxInfo number).next = context.rxInfo (number + 1) := by
  simp [CryptoInfo.next, TLSContext.rxInfo, cryptoInfo]

/-- One record more is one record first, then the others. -/
theorem add_ofNat_succ (a : UInt64) (n : Nat)
    : a + UInt64.ofNat (n + 1) = a + 1 + UInt64.ofNat n := by
  rw [UInt64.ofNat_add, UInt64.add_comm (UInt64.ofNat n), ← UInt64.add_assoc]
  rfl

namespace Attached

variable {session : TLSContext lib} {sent received : UInt64} {endpoint : Endpoint lib kernel}

/-- A sent record moves the sending number on by one and leaves the receiving one. -/
theorem send (attached : Attached session sent received endpoint)
    (more : sent.toNat + 1 < 2 ^ 64)
    : Attached session (sent + 1) received
        { endpoint with sock := kernel.send endpoint.sock } where
  ready := attached.ready
  tx := attached.tx
  rx := attached.rx
  sent_ := by
    have next := kernel.txInfo_send (by rwa [attached.sent_, number_txInfo])
    rw [next, attached.sent_, next_txInfo]
  received_ := (kernel.rxInfo_send _).trans attached.received_

/-- A received record moves the receiving number on by one and leaves the sending one. -/
theorem receive (attached : Attached session sent received endpoint)
    (more : received.toNat + 1 < 2 ^ 64)
    : Attached session sent (received + 1)
        { endpoint with sock := kernel.receive endpoint.sock } where
  ready := attached.ready
  tx := attached.tx
  rx := attached.rx
  sent_ := (kernel.txInfo_receive _).trans attached.sent_
  received_ := by
    have next := kernel.rxInfo_receive (by rwa [attached.received_, number_rxInfo])
    rw [next, attached.received_, next_rxInfo]

/-- A hand-off succeeds, and the next process seals as this one would have. -/
theorem handOff (attached : Attached session sent received endpoint) (stack : Stack)
    : ∃ next, handOff endpoint stack = some next ∧ Attached session sent received next := by
  have unmade : tlsUnmakeKtls endpoint.context endpoint.sock
      = endpoint.context.numbered sent received := by
    rw [tlsUnmakeKtls, attached.sent_, attached.received_, number_txInfo, number_rxInfo]
  have ready := attached.ready.numbered sent received
  obtain ⟨sock, made, tx, rx⟩ : ∃ sock,
      tlsMakeKtls kernel (endpoint.context.numbered sent received).carried = .ok sock
      ∧ kernel.txInfo sock = (endpoint.context.numbered sent received).carried.txInfo sent
      ∧ kernel.rxInfo sock = (endpoint.context.numbered sent received).carried.rxInfo received :=
    ⟨_, ready.carried.tlsMakeKtls_eq, kernel.txInfo_attach _ _, kernel.rxInfo_attach _ _⟩
  refine ⟨⟨_, sock⟩, ?_, ⟨ready.carried, ?_, ?_, ?_, ?_⟩⟩
  · simp only [Tls.handOff, unmade, ready.portable.tlsExport_eq, ready.portable.importTls_eq, made]
    rfl
  · exact fun number => (ready.txInfo_carried number).trans (attached.tx number)
  · exact fun number => (ready.rxInfo_carried number).trans (attached.rx number)
  · exact tx.trans ((ready.txInfo_carried sent).trans (attached.tx sent))
  · exact rx.trans ((ready.rxInfo_carried received).trans (attached.rx received))

/-- A whole run succeeds, and its records are sealed one number after the other. -/
theorem run (attached : Attached session sent received endpoint) (events : List Event)
    (moreSends : sent.toNat + sends events < 2 ^ 64)
    (moreReceives : received.toNat + receives events < 2 ^ 64)
    : ∃ last, Tls.run endpoint events
          = some (last, (List.range (sends events)).map fun i =>
              (session.txInfo (sent + UInt64.ofNat i)).seal)
        ∧ Attached session (sent + UInt64.ofNat (sends events))
            (received + UInt64.ofNat (receives events)) last := by
  -- on the events: the numbers do not wrap, so each record has the one after the last
  induction events generalizing endpoint sent received with
  | nil => exact ⟨endpoint, rfl, by simpa [sends, receives] using attached⟩
  | cons event events ih =>
      cases event with
      | send =>
          simp only [sends, receives] at moreSends moreReceives
          have next : (sent + 1).toNat = sent.toNat + 1 := by
            rw [UInt64.toNat_add]
            exact Nat.mod_eq_of_lt (by change sent.toNat + 1 < _; omega)
          obtain ⟨last, ran, attached'⟩ :=
            ih (attached.send (by omega)) (by omega) moreReceives
          rw [← add_ofNat_succ] at attached'
          refine ⟨last, ?_, attached'⟩
          have first : sent + UInt64.ofNat 0 = sent := UInt64.add_zero sent
          simp only [Tls.run, ran, Option.map_some, sends, attached.sent_, List.range_succ_eq_map,
            List.map_cons, List.map_map, Function.comp_def, Nat.succ_eq_add_one, add_ofNat_succ,
            first]
      | receive =>
          simp only [sends, receives] at moreSends moreReceives
          have next : (received + 1).toNat = received.toNat + 1 := by
            rw [UInt64.toNat_add]
            exact Nat.mod_eq_of_lt (by change received.toNat + 1 < _; omega)
          obtain ⟨last, ran, attached'⟩ :=
            ih (attached.receive (by omega)) moreSends (by omega)
          rw [← add_ofNat_succ] at attached'
          exact ⟨last, ran, attached'⟩
      | handOff stack =>
          -- a hand-off leaves both numbers where they are
          obtain ⟨next, handed, attached⟩ := attached.handOff stack
          obtain ⟨last, ran, attached⟩ := ih attached moreSends moreReceives
          refine ⟨last, ?_, attached⟩
          simp only [Tls.run, handed]
          exact ran

end Attached

/-- A run without its hand-offs has as many records each way, by induction on the run. -/
theorem counts_filter (events : List Event)
    : sends (events.filter Event.isRecord) = sends events
      ∧ receives (events.filter Event.isRecord) = receives events := by
  induction events with
  | nil => exact ⟨rfl, rfl⟩
  | cons event events ih =>
      cases event <;> simp [List.filter_cons, Event.isRecord, sends, receives, ih]

/-- Seals of fewer than 2^64 numbers in a row are all different. -/
theorem seals_nodup (session : TLSContext lib) (first : UInt64) {n : Nat} (few : n ≤ 2 ^ 64)
    : ((List.range n).map fun i => (session.txInfo (first + UInt64.ofNat i)).seal).Nodup := by
  refine List.Nodup.map_on ?_ List.nodup_range
  intro i inside j inside' same
  rw [List.mem_range] at inside inside'
  have iv : htonll (first + UInt64.ofNat i) = htonll (first + UInt64.ofNat j) :=
    congrArg Seal.iv same
  have numbers := congrArg UInt64.toNat ((UInt64.add_right_inj first).mp (htonll_injective iv))
  rwa [UInt64.toNat_ofNat_of_lt' (Nat.lt_of_lt_of_le inside few),
    UInt64.toNat_ofNat_of_lt' (Nat.lt_of_lt_of_le inside' few)] at numbers

/-- Hand-offs are invisible in the records of a connection: they all succeed, what is sealed and
both directions of the kernel's state are as in the run without them, and no seal is used twice.
-/
theorem handOffs_invisible {context : TLSContext lib} {sock : kernel.Sock} (ready : Ready context)
    (made : tlsMakeKtls kernel context = .ok sock) (events : List Event)
    (moreSends : context.localSequenceNumber.toNat + sends events < 2 ^ 64)
    (moreReceives : context.remoteSequenceNumber.toNat + receives events < 2 ^ 64)
    : ∃ last plain seals, run ⟨context, sock⟩ events = some (last, seals)
        ∧ run ⟨context, sock⟩ (events.filter Event.isRecord) = some (plain, seals)
        ∧ kernel.txInfo last.sock = kernel.txInfo plain.sock
        ∧ kernel.rxInfo last.sock = kernel.rxInfo plain.sock
        ∧ seals.Nodup := by
  have attached : Attached context context.localSequenceNumber context.remoteSequenceNumber
      (⟨context, sock⟩ : Endpoint lib kernel) := by
    rw [ready.tlsMakeKtls_eq] at made
    obtain rfl := Except.ok.inj made
    exact ⟨ready, fun _ => rfl, fun _ => rfl, kernel.txInfo_attach _ _, kernel.rxInfo_attach _ _⟩
  obtain ⟨sameSends, sameReceives⟩ := counts_filter events
  obtain ⟨last, ran, after⟩ := attached.run events moreSends moreReceives
  obtain ⟨plain, ranPlain, afterPlain⟩ := attached.run (events.filter Event.isRecord)
    (by rwa [sameSends]) (by rwa [sameReceives])
  rw [sameSends] at ranPlain afterPlain
  rw [sameReceives] at afterPlain
  exact ⟨last, plain, _, ran, ranPlain, after.sent_.trans afterPlain.sent_.symm,
    after.received_.trans afterPlain.received_.symm, seals_nodup _ _ (by omega)⟩

end Ktls

/-- A kernel that is what it was told and the records since. -/
def sampleKernel : TlsKernel where
  Sock := CryptoInfo × CryptoInfo
  attach tx rx := (tx, rx)
  txInfo := Prod.fst
  rxInfo := Prod.snd
  send sock := (sock.1.next, sock.2)
  receive sock := (sock.1, sock.2.next)
  txInfo_attach _ _ := rfl
  rxInfo_attach _ _ := rfl
  txInfo_send _ := rfl
  rxInfo_send _ := rfl
  txInfo_receive _ := rfl
  rxInfo_receive _ := rfl

def sampleStack : Stack := ⟨Vector.replicate 16 0, Vector.replicate 16 0, Vector.replicate 255 0⟩

def sampleSock : sampleKernel.Sock := (sampleContext.txInfo 1, sampleContext.rxInfo 1)

/-- A hand-off between the records of a run changes neither their seals nor the kernel's
numbers.
-/
theorem handOffs_invisible_sample
    : ∃ last plain seals,
        run ⟨sampleContext, sampleSock⟩ [.send, .handOff sampleStack, .receive, .send]
          = some (last, seals)
        ∧ run ⟨sampleContext, sampleSock⟩
            ([.send, .handOff sampleStack, .receive, .send].filter Event.isRecord)
          = some (plain, seals)
        ∧ sampleKernel.txInfo last.sock = sampleKernel.txInfo plain.sock
        ∧ sampleKernel.rxInfo last.sock = sampleKernel.rxInfo plain.sock
        ∧ seals.Nodup :=
  handOffs_invisible ⟨portable_sample, by decide, by decide⟩ rfl _ (by decide) (by decide)

end PrismHTTP.Tls
