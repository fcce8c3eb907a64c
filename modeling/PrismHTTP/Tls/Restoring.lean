import PrismHTTP.Tls.SavedState

/-! Which bytes the importer restores a context from.
It restores one just from the saved states, with anything behind them. It reads outside its
buffer just where a length is a negative `int`, or where nothing follows the exported keys.
-/

namespace PrismHTTP.Tls
open ByteLayout BigEndian CursorParsing

/-- What is read at fixed places, and the initialization vectors. -/
structure Header where
  version : UInt16
  connectionStatus : UInt8
  cipher : UInt16
  server : UInt8
  ivLen : UInt8
  ivFits : ivLen.toNat ≤ tlsAesIvLength
  localIv : Vector UInt8 ivLen.toNat
  remoteIv : Vector UInt8 ivLen.toNat

namespace Header

def fields (header : Header) : Bytes :=
  [1, header.connectionStatus]
    ++ (be16 header.cipher
      ++ ([header.server, header.ivLen] ++ (header.localIv.toList ++ header.remoteIv.toList)))

def opening (header : Header) (size : Nat) : Bytes :=
  [tlsSerializedObject]
    ++ (be16 header.version
      ++ (be16 (UInt16.ofNat (header.fields.length + size)) ++ header.fields))

/-- The header with the length of all that follows it. -/
def around (header : Header) (content : Bytes) : Bytes :=
  header.opening content.length ++ content

def install {lib : CipherLib} (header : Header) (context : TLSContext lib) : TLSContext lib :=
  { context with
    version := header.version
    connectionStatus := header.connectionStatus
    cipher := header.cipher
    isServer := if header.server = 2 then 1 else header.server
    isChild := if header.server = 2 then 1 else context.isChild }

/-- The fields of a header are six bytes and both initialization vectors. -/
theorem length_fields (header : Header)
    : header.fields.length = 6 + header.ivLen.toNat + header.ivLen.toNat := by
  simp only [fields, List.length_append, List.length_cons, List.length_nil, length_be16,
    Vector.length_toList]
  omega

/-- The opening of a packet is eleven bytes and both initialization vectors. -/
theorem length_opening (header : Header) (size : Nat)
    : (header.opening size).length = 11 + header.ivLen.toNat + header.ivLen.toNat := by
  simp only [opening, List.length_append, List.length_cons, List.length_nil, length_be16,
    length_fields]
  omega

/-- A packet is five bytes longer than its fields and its content. -/
theorem length_around (header : Header) (content : Bytes)
    : (header.around content).length = 5 + (header.fields.length + content.length) := by
  rw [around, List.length_append, length_opening, length_fields]
  omega

end Header

/-- A saved state; MAC keys and ChaCha20 states suit the cipher. -/
structure Saved where
  header : Header
  secrets : Secrets
  suits : secrets.macs.Suits header.cipher
  tlsBuffer : Sent
  messageBuffer : Sent
  applicationBuffer : Sent
  dtls : Dtls

namespace Saved

def body (saved : Saved) : Bytes :=
  saved.secrets.bytes
    ++ (saved.tlsBuffer.section
      ++ (saved.messageBuffer.section ++ (saved.applicationBuffer.section ++ saved.dtls.bytes)))

/-- The bytes of a saved state, and what lies behind it. -/
def bytes (saved : Saved) (trailing : Bytes) : Bytes :=
  saved.header.around (saved.body ++ trailing)

variable {lib : CipherLib}

/-- The context with header and exported keys. -/
def installExported (header : Header) (keys : Counted 8) (context : TLSContext lib)
    (stack : Stack)
    : Option (TLSContext lib) :=
  Secrets.installExported keys (header.install context) stack header.ivLen.toNat
    (overlay stack.localIv header.localIv.toList) (overlay stack.remoteIv header.remoteIv.toList)

/-- The context with header, keys, MACs and sequence numbers. -/
def installSecrets (header : Header) (secrets : Secrets) (context : TLSContext lib)
    (stack : Stack)
    : Option (TLSContext lib) :=
  secrets.install (header.install context) stack header.ivLen.toNat
    (overlay stack.localIv header.localIv.toList) (overlay stack.remoteIv header.remoteIv.toList)

/-- The restored context. -/
def install (saved : Saved) (context : TLSContext lib) (stack : Stack)
    : Option (TLSContext lib) :=
  (installSecrets saved.header saved.secrets context stack).map fun context =>
    saved.dtls.install { context with
      tlsBuffer := saved.tlsBuffer.received context.tlsBuffer
      messageBuffer := saved.messageBuffer.received context.messageBuffer
      applicationBuffer := saved.applicationBuffer.received context.applicationBuffer
      cipherSpecSet := 1 }

end Saved

section Opening

variable {lib : CipherLib} {header : Header} {content : Bytes}

/-- The header is read back, and the import goes on behind it. -/
theorem tlsImportContext2_around {context : TLSContext lib} {stack : Stack}
    (long : 64 ≤ (header.around content).length)
    (short : header.fields.length + content.length < 2 ^ 16)
    : tlsImportContext2 context stack (header.around content)
      = run
          (importBody (header.install context) stack header.ivLen.toNat
            (overlay stack.localIv header.localIv.toList)
            (overlay stack.remoteIv header.remoteIv.toList))
          (header.around content) (header.opening content.length).length := by
  -- the eleven bytes at fixed places are named, so that each read is by `rfl`
  obtain ⟨v₁, v₂, version⟩ := List.length_eq_two.mp (length_be16 header.version)
  obtain ⟨l₁, l₂, length⟩ := List.length_eq_two.mp
    (length_be16 (UInt16.ofNat (header.fields.length + content.length)))
  obtain ⟨c₁, c₂, cipher⟩ := List.length_eq_two.mp (length_be16 header.cipher)
  have opened : header.around content
      = [tlsSerializedObject, v₁, v₂, l₁, l₂, 1, header.connectionStatus, c₁, c₂, header.server,
          header.ivLen] ++ (header.localIv.toList ++ (header.remoteIv.toList ++ content)) := by
    rw [Header.around, Header.opening, version, length, Header.fields, cipher]
    simp
  have versionRead : ntohs (header.around content) 1 = header.version := by
    rw [← ofNat_value_be16 header.version, version, opened]
    rfl
  have cipherRead : ntohs (header.around content) 7 = header.cipher := by
    rw [← ofNat_value_be16 header.cipher, cipher, opened]
    rfl
  -- the size written is that of the buffer without the first five bytes
  have sizeRead : (ntohs (header.around content) 3).toNat
      = (header.around content).length - 5 := by
    have read : ntohs (header.around content) 3
        = UInt16.ofNat (header.fields.length + content.length) := by
      rw [← ofNat_value_be16 (UInt16.ofNat (header.fields.length + content.length)), length,
        opened]
      rfl
    rw [read, UInt16.toNat_ofNat_of_lt' short, Header.length_around]
    omega
  have byteRead : get8 (header.around content) 0 = tlsSerializedObject
      ∧ get8 (header.around content) 5 = 1
      ∧ get8 (header.around content) 6 = header.connectionStatus
      ∧ get8 (header.around content) 9 = header.server
      ∧ get8 (header.around content) 10 = header.ivLen := by
    rw [opened]
    exact ⟨rfl, rfl, rfl, rfl, rfl⟩
  obtain ⟨object, one, status, server, ivLen⟩ := byteRead
  have localRead : (getRun (get8 (header.around content) 10).toNat (header.around content)
      11).toList = header.localIv.toList := by
    rw [ivLen, opened]
    exact congrArg Vector.toList (getRun_between _ _ _)
  have remoteRead : (getRun (get8 (header.around content) 10).toNat (header.around content)
      (11 + (get8 (header.around content) 10).toNat)).toList = header.remoteIv.toList := by
    have run_ := getRun_between ([tlsSerializedObject, v₁, v₂, l₁, l₂, 1,
      header.connectionStatus, c₁, c₂, header.server, header.ivLen] ++ header.localIv.toList)
      content header.remoteIv
    rw [List.length_append, Vector.length_toList] at run_
    rw [ivLen, opened, ← List.append_assoc]
    exact congrArg Vector.toList run_
  -- with the reads known, none of the four refusals of the opening applies
  unfold tlsImportContext2
  rw [if_neg (by simp [object, one]; omega), if_neg (not_not.mpr sizeRead)]
  simp only [localRead, remoteRead]
  simp only [status, server, ivLen, versionRead, cipherRead]
  rw [if_neg (Nat.not_lt.mpr header.ivFits), Header.length_opening]
  rfl

/-- What passes the checks on the header has one. -/
theorem exists_around {buffer : Bytes} (long : 64 ≤ buffer.length)
    (object : get8 buffer 0 = tlsSerializedObject) (one : get8 buffer 5 = 1)
    (size : (ntohs buffer 3).toNat = buffer.length - 5)
    (fits : (get8 buffer 10).toNat ≤ tlsAesIvLength)
    : ∃ header content, buffer = Header.around header content
        ∧ header.fields.length + content.length < 2 ^ 16 := by
  -- the first eleven bytes are fields of fixed size, the initialization vectors follow
  obtain ⟨fixed, rest, rfl, eleven⟩ : ∃ fixed rest : Bytes, buffer = fixed ++ rest
      ∧ fixed.length = 11 :=
    ⟨buffer.take 11, buffer.drop 11, (List.take_append_drop 11 buffer).symm, by simp; omega⟩
  obtain ⟨b₀, v₁, v₂, l₁, l₂, b₅, status, c₁, c₂, server, ivLen, rfl⟩ :
      ∃ b₀ v₁ v₂ l₁ l₂ b₅ status c₁ c₂ server ivLen,
        [b₀, v₁, v₂, l₁, l₂, b₅, status, c₁, c₂, server, ivLen] = fixed := by
    simpa [List.length_eq_succ_iff] using eleven
  obtain rfl : b₀ = tlsSerializedObject := object
  obtain rfl : b₅ = 1 := one
  have fits : ivLen.toNat ≤ 16 := fits
  rw [List.length_append, eleven] at long size
  have size : (UInt16.ofNat (value [l₁, l₂])).toNat = 11 + rest.length - 5 := size
  have bound := (UInt16.ofNat (value [l₁, l₂])).toNat_lt
  let header : Header :=
    { version := UInt16.ofNat (value [v₁, v₂])
      connectionStatus := status
      cipher := UInt16.ofNat (value [c₁, c₂])
      server := server
      ivLen := ivLen
      ivFits := fits
      localIv := ⟨(rest.take ivLen.toNat).toArray, by simp; omega⟩
      remoteIv := ⟨((rest.drop ivLen.toNat).take ivLen.toNat).toArray, by simp; omega⟩ }
  have total : header.fields.length + ((rest.drop ivLen.toNat).drop ivLen.toNat).length
      = rest.length + 6 := by
    rw [Header.length_fields, List.length_drop, List.length_drop]
    have same : header.ivLen = ivLen := rfl
    rw [same]
    omega
  refine ⟨header, (rest.drop ivLen.toNat).drop ivLen.toNat, ?_, by omega⟩
  have version : be16 header.version = [v₁, v₂] := be16_ofNat_value rfl
  have cipher : be16 header.cipher = [c₁, c₂] := be16_ofNat_value rfl
  have length : be16 (UInt16.ofNat (rest.length + 6)) = [l₁, l₂] := by
    rw [show rest.length + 6 = 11 + rest.length - 5 by omega, ← size, UInt16.ofNat_toNat,
      be16_ofNat_value rfl]
  -- the two vectors and what is behind them make up the rest again
  have split : rest.take ivLen.toNat ++ ((rest.drop ivLen.toNat).take ivLen.toNat
      ++ (rest.drop ivLen.toNat).drop ivLen.toNat) = rest := by
    rw [List.take_append_drop, List.take_append_drop]
  rw [Header.around, Header.opening, total, version, length, Header.fields, cipher]
  simp only [List.append_assoc]
  exact congrArg ([tlsSerializedObject, v₁, v₂, l₁, l₂, 1, status, c₁, c₂, server, ivLen] ++ ·)
    split.symm

end Opening

section Body

variable {lib : CipherLib} {context : TLSContext lib} {stack : Stack} {ivLen : Nat}
  {localIv remoteIv : Vector UInt8 16}

/-- The reader behind the header accepts the secrets, the three buffers and the DTLS section,
section by section as `bind` puts the readers together.
-/
theorem importBody_parses
    : Imports (importBody context stack ivLen localIv remoteIv)
        (fun piece c => ∃ (secrets : Secrets) (c₁ : TLSContext lib)
          (tlsBuffer messageBuffer applicationBuffer : Sent) (dtls : Dtls),
          secrets.macs.Suits context.cipher
          ∧ secrets.install context stack ivLen localIv remoteIv = some c₁
          ∧ piece = secrets.bytes ++ (tlsBuffer.section
              ++ (messageBuffer.section ++ (applicationBuffer.section ++ dtls.bytes)))
          ∧ c = dtls.install { c₁ with
              tlsBuffer := tlsBuffer.received c₁.tlsBuffer
              messageBuffer := messageBuffer.received c₁.messageBuffer
              applicationBuffer := applicationBuffer.received c₁.applicationBuffer
              cipherSpecSet := 1 })
        (fun content => content = []
          ∨ (∃ keys : Counted 8, content = keys.section
            ∧ (Secrets.installExported keys context stack ivLen localIv remoteIv).isSome)
          ∨ ∃ (secrets : Secrets) (before : List Sent) (length : UInt32) (trailing : Bytes),
            secrets.macs.Suits context.cipher
            ∧ (secrets.install context stack ivLen localIv remoteIv).isSome
            ∧ before.length < 3 ∧ 2 ^ 31 ≤ length.toNat
            ∧ content = secrets.bytes
              ++ (before.flatMap Sent.section ++ be32 length ++ trailing)) := by
  have parses : Imports (importBody context stack ivLen localIv remoteIv) _ _ :=
    .bind (importSecrets_parses _ _ _ _ _) fun _ => .bind (importBuffers_parses _) fun _ =>
      importDtls_parses _
  refine parses.congr ?_ ?_
  · intro piece c
    constructor
    · rintro ⟨c₁, _, _, rfl, ⟨secrets, suits, rfl, installed⟩, _, _, _, rfl,
        ⟨tlsBuffer, messageBuffer, applicationBuffer, rfl, rfl⟩, dtls, rfl, rfl⟩
      exact ⟨secrets, c₁, tlsBuffer, messageBuffer, applicationBuffer, dtls, suits, installed,
        by simp, rfl⟩
    · rintro ⟨secrets, c₁, tlsBuffer, messageBuffer, applicationBuffer, dtls, suits, installed,
        rfl, rfl⟩
      exact ⟨c₁, _, _, rfl, ⟨secrets, suits, rfl, installed⟩, _, _, _, by simp,
        ⟨tlsBuffer, messageBuffer, applicationBuffer, rfl, rfl⟩, dtls, rfl, rfl⟩
  -- the datagram part never strays, so only the keys and the buffers remain
  · intro content
    rw [or_assoc]
    refine or_congr Iff.rfl (or_congr Iff.rfl ?_)
    constructor
    · rintro ⟨c₁, _, _, rfl, ⟨secrets, suits, rfl, installed⟩,
        ⟨before, length, trailing, few, large, rfl⟩ | ⟨_, _, _, _, _, impossible⟩⟩
      · exact ⟨secrets, before, length, trailing, suits,
          Option.isSome_iff_exists.mpr ⟨c₁, installed⟩, few, large, rfl⟩
      · exact impossible.elim
    · rintro ⟨secrets, before, length, trailing, suits, installed, few, large, rfl⟩
      obtain ⟨c₁, installed⟩ := Option.isSome_iff_exists.mp installed
      exact ⟨c₁, _, _, rfl, ⟨secrets, suits, rfl, installed⟩,
        Or.inl ⟨before, length, trailing, few, large, rfl⟩⟩

end Body

section Restoring

variable {lib : CipherLib} {context : TLSContext lib} {stack : Stack} {buffer : Bytes}

/-- What is not refused at once has a header. -/
theorem exists_around_of_ne (passed : tlsImportContext2 context stack buffer ≠ .error .refused)
    : ∃ header content, buffer = Header.around header content ∧ 64 ≤ buffer.length
        ∧ header.fields.length + content.length < 2 ^ 16 := by
  unfold tlsImportContext2 at passed
  split at passed
  case isTrue => contradiction
  case isFalse opened =>
    simp only [not_or, Nat.not_lt, ne_eq, not_not] at opened
    obtain ⟨long, object, one⟩ := opened
    split at passed
    case isTrue => contradiction
    case isFalse size =>
      dsimp only at passed
      split at passed
      case isTrue => contradiction
      case isFalse fits =>
        obtain ⟨header, content, around, short⟩ :=
          exists_around long object one (not_not.mp size) (Nat.not_lt.mp fits)
        exact ⟨header, content, around, long, short⟩

/-- The importer restores a context from a saved state and anything behind it that a length of
16 bits counts, and from nothing else. The context it starts from has no cipher, as the new one
that a server imports into: `cryptoCreate` makes the ciphers of such a context.
-/
theorem import_iff {c : TLSContext lib}
    : tlsImportContext2 context stack buffer = .ok c
      ↔ ∃ (saved : Saved) (trailing : Bytes), buffer = saved.bytes trailing
          ∧ 64 ≤ buffer.length ∧ buffer.length < 5 + 2 ^ 16
          ∧ saved.install context stack = some c := by
  constructor
  · intro accepts
    obtain ⟨header, content, rfl, long, short⟩ :=
      exists_around_of_ne (fun refused => by rw [refused] at accepts; cases accepts)
    have length := header.length_around content
    rw [tlsImportContext2_around long short] at accepts
    obtain ⟨next, body⟩ := run_eq_ok.mp accepts
    rw [Header.around] at body
    obtain ⟨_, trailing, rfl, ⟨secrets, c₁, tlsBuffer, messageBuffer, applicationBuffer, dtls,
      suits, installed, rfl, rfl⟩, -⟩ :=
      (importBody_parses.accepts (by rw [← Header.around]; omega)).mp body
    refine ⟨⟨header, secrets, suits, tlsBuffer, messageBuffer, applicationBuffer, dtls⟩, trailing,
      rfl, long, by omega, ?_⟩
    exact Option.map_eq_some_iff.mpr ⟨c₁, installed, rfl⟩
  · rintro ⟨saved, trailing, rfl, long, short, installed⟩
    obtain ⟨c₁, restored, rfl⟩ := Option.map_eq_some_iff.mp installed
    have length := saved.header.length_around (saved.body ++ trailing)
    rw [Saved.bytes] at long short ⊢
    rw [tlsImportContext2_around long (by omega), Header.around]
    exact run_eq_ok.mpr ⟨_, (importBody_parses.accepts (by rw [← Header.around]; omega)).mpr
      ⟨saved.body, trailing, rfl, ⟨saved.secrets, c₁, saved.tlsBuffer, saved.messageBuffer,
        saved.applicationBuffer, saved.dtls, saved.suits, restored, rfl, rfl⟩, rfl⟩⟩

/-- The importer reads outside its buffer just in two cases, both behind a header it accepts:
the buffer ends with the exported keys, whose ciphers it has created before it looks for the
length of the MAC keys; or the length of one of the three buffers is a negative `int`, in what
is a saved state up to there.
-/
theorem import_strays_iff
    : tlsImportContext2 context stack buffer = .error .outside
      ↔ 64 ≤ buffer.length ∧ buffer.length < 5 + 2 ^ 16
        ∧ ∃ header : Header,
            (∃ keys : Counted 8, buffer = header.around keys.section
              ∧ (Saved.installExported header keys context stack).isSome)
            ∨ ∃ (secrets : Secrets) (before : List Sent) (length : UInt32) (trailing : Bytes),
                secrets.macs.Suits header.cipher
                ∧ (Saved.installSecrets header secrets context stack).isSome
                ∧ before.length < 3 ∧ 2 ^ 31 ≤ length.toNat
                ∧ buffer = header.around
                    (secrets.bytes
                      ++ (before.flatMap Sent.section ++ be32 length ++ trailing)) := by
  constructor
  · intro outside
    obtain ⟨header, content, rfl, long, short⟩ :=
      exists_around_of_ne (fun refused => by rw [refused] at outside; cases outside)
    have length := header.length_around content
    rw [tlsImportContext2_around long short, run_eq_error, Header.around,
      importBody_parses.strays (by rw [← Header.around]; omega)] at outside
    refine ⟨long, by omega, header, ?_⟩
    rcases outside with rfl | ⟨keys, rfl, installed⟩
      | ⟨secrets, before, bufferLen, trailing, suits, installed, few, large, rfl⟩
    · -- the length of the keys is read before the 64th byte
      have bound := header.ivFits
      rw [header.length_fields, List.length_nil] at length
      have fits : tlsAesIvLength = 16 := rfl
      omega
    · exact Or.inl ⟨keys, rfl, installed⟩
    · exact Or.inr ⟨secrets, before, bufferLen, trailing, suits, installed, few, large, rfl⟩
  -- each kind of buffer has the shape at which the parser of the body strays
  · rintro ⟨long, short, header, strays⟩
    obtain ⟨content, rfl, outside⟩ : ∃ content, buffer = header.around content
        ∧ (content = [] ∨ (∃ keys : Counted 8, content = keys.section
            ∧ (Saved.installExported header keys context stack).isSome)
          ∨ ∃ (secrets : Secrets) (before : List Sent) (length : UInt32) (trailing : Bytes),
            secrets.macs.Suits header.cipher
            ∧ (Saved.installSecrets header secrets context stack).isSome
            ∧ before.length < 3 ∧ 2 ^ 31 ≤ length.toNat
            ∧ content = secrets.bytes
              ++ (before.flatMap Sent.section ++ be32 length ++ trailing)) := by
      rcases strays with ⟨keys, rfl, installed⟩
        | ⟨secrets, before, bufferLen, trailing, suits, installed, few, large, rfl⟩
      · exact ⟨_, rfl, Or.inr (Or.inl ⟨keys, rfl, installed⟩)⟩
      · exact ⟨_, rfl, Or.inr (Or.inr ⟨secrets, before, bufferLen, trailing, suits, installed,
          few, large, rfl⟩)⟩
    have length := header.length_around content
    rw [tlsImportContext2_around long (by omega), run_eq_error, Header.around]
    exact (importBody_parses.strays (by rw [← Header.around]; omega)).mpr outside

end Restoring

end PrismHTTP.Tls
