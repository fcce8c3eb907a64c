import PrismHTTP.Tls.Import

/-! The format of a saved TLS state, and what the importer makes of it.
A saved state is a structure of its sections, each with its bytes; the importer's parsers are
described by them.
-/

namespace PrismHTTP.Tls
open ByteLayout BigEndian CursorParsing

/-- MAC keys, the states of ChaCha20, or neither. -/
inductive Macs where
  | none
  | keys (length : UInt8) (some_ : length ≠ 0) (fits : length.toNat ≤ tlsMaxMacSize)
      (localMac remoteMac : Vector UInt8 length.toNat)
  | chacha (states : Vector UInt8 256)

namespace Macs

def bytes : Macs → Bytes
  | none => [0]
  | keys length _ _ localMac remoteMac => [length] ++ (localMac.toList ++ remoteMac.toList)
  | chacha states => [0] ++ states.toList

/-- Without MAC keys, the states of ChaCha20 are there just for its suites. -/
def Suits (cipher : UInt16) : Macs → Prop
  | none => isAead cipher ≠ 2
  | keys .. => True
  | chacha _ => isAead cipher = 2

def install {lib : CipherLib} (context : TLSContext lib) : Macs → TLSContext lib
  | none => context
  | keys _ _ _ localMac remoteMac =>
      { context with
        localMac := overlay context.localMac localMac.toList
        remoteMac := overlay context.remoteMac remoteMac.toList }
  | chacha states =>
      { context with
        crypto := .chacha (chachaStates states.toList).1 (chachaStates states.toList).2 }

end Macs

/-- Exported keys behind their length. -/
def Counted.section (keys : Counted 8) : Bytes :=
  [UInt8.ofNat keys.bytes.length] ++ keys.bytes

/-- The sections between the initialization vectors and the buffers. -/
structure Secrets where
  keys : Counted 8
  macs : Macs
  masterKey : Counted 16
  localSequenceNumber : UInt64
  remoteSequenceNumber : UInt64

namespace Secrets

def bytes (secrets : Secrets) : Bytes :=
  [UInt8.ofNat secrets.keys.bytes.length]
    ++ (secrets.keys.bytes
      ++ (secrets.macs.bytes
        ++ (be16 (UInt16.ofNat secrets.masterKey.bytes.length) ++ secrets.masterKey.bytes
          ++ (be64 secrets.localSequenceNumber ++ be64 secrets.remoteSequenceNumber))))

/-- The context with its exported keys, their ciphers and the initialization vectors. -/
def installExported {lib : CipherLib} (keys : Counted 8) (context : TLSContext lib)
    (stack : Stack) (ivLen : Nat) (localIv remoteIv : Vector UInt8 16)
    : Option (TLSContext lib) :=
  let context := installIvs { context with exportable := 1, exportableKeys := keys }
    ivLen localIv remoteIv
  let temp := (overlay stack.temp keys.bytes).toList
  installKeys context keys.bytes.length temp localIv remoteIv

/-- What the sections make of a context with the given initialization vectors. -/
def install {lib : CipherLib} (secrets : Secrets) (context : TLSContext lib) (stack : Stack)
    (ivLen : Nat) (localIv remoteIv : Vector UInt8 16)
    : Option (TLSContext lib) :=
  (installExported secrets.keys context stack ivLen localIv remoteIv).map fun context =>
    let context := secrets.macs.install context
    { context with
      masterKey :=
        if secrets.masterKey.bytes = [] then context.masterKey
        else ⟨secrets.masterKey.bytes, Nat.lt_trans secrets.masterKey.small (by decide)⟩
      localSequenceNumber := secrets.localSequenceNumber
      remoteSequenceNumber := secrets.remoteSequenceNumber }

end Secrets

/-- A buffer whose length is no negative `int`. -/
abbrev Sent := Counted 31

def Sent.section (buffer : Sent) : Bytes :=
  be32 (UInt32.ofNat buffer.bytes.length) ++ buffer.bytes

def Sent.received (buffer : Sent) (kept : Counted 32) : Counted 32 :=
  if buffer.bytes = [] then kept
  else ⟨buffer.bytes, Nat.lt_trans buffer.small (by decide)⟩

/-- The epochs are there for DTLS only. -/
inductive Dtls where
  | none
  | epochs (dtls : UInt8) (some_ : dtls ≠ 0) (epochLocal epochRemote : UInt16)

namespace Dtls

def bytes : Dtls → Bytes
  | none => [0]
  | epochs dtls _ epochLocal epochRemote => [dtls] ++ (be16 epochLocal ++ be16 epochRemote)

def install {lib : CipherLib} (context : TLSContext lib) : Dtls → TLSContext lib
  | none => { context with dtls := 0 }
  | epochs dtls _ epochLocal epochRemote =>
      { context with
        dtls := dtls, dtlsEpochLocal := epochLocal, dtlsEpochRemote := epochRemote }

end Dtls

/-- The importer's parsers, on texts that an `int` can measure. -/
abbrev Imports {α : Type} (m : Parser α) (T : Bytes → α → Prop) (F : Bytes → Prop) : Prop :=
  Parses (2 ^ 31) m T F

section Parsers

variable {lib : CipherLib}

/-- The reader of the MAC section accepts exactly the sections that suit the cipher, by cases
on the length it reads first.
-/
theorem importMacs_parses (context : TLSContext lib)
    : Imports (importMacs context)
        (fun piece c => ∃ macs : Macs, macs.Suits context.cipher ∧ piece = macs.bytes
          ∧ c = macs.install context)
        (fun content => content = []) := by
  -- a length of zero is followed by the cipher states for ChaCha20 and by nothing otherwise
  have parses : Imports (importMacs context) _ _ :=
    .bind .byte fun macLength => .bind (.require _) fun _ =>
      .ite _ (.bind (.take _) fun _ => .bind (.take _) fun _ => .pure _)
        (.ite _ (.bind (.take _) fun _ => .pure _) (.pure _))
  refine parses.congr ?_ (by simp)
  intro piece c
  constructor
  · rintro ⟨macLength, _, _, rfl, rfl, -, _, _, rfl, ⟨rfl, fits⟩, rest⟩
    split at rest
    case isTrue some_ =>
      obtain ⟨localMac, _, _, rfl, rfl, remoteMac, _, _, rfl, rfl, rfl, rfl⟩ := rest
      exact ⟨.keys macLength some_ fits localMac remoteMac, trivial, by simp [Macs.bytes], rfl⟩
    case isFalse zero =>
      obtain rfl : macLength = 0 := by simpa using zero
      split at rest
      case isTrue chacha =>
        obtain ⟨states, _, _, rfl, rfl, rfl, rfl⟩ := rest
        exact ⟨.chacha states, chacha, by simp [Macs.bytes], rfl⟩
      case isFalse other =>
        obtain ⟨rfl, rfl⟩ := rest
        exact ⟨.none, other, rfl, rfl⟩
  · rintro ⟨macs, suits, rfl, rfl⟩
    cases macs with
    | none =>
        refine ⟨0, [0], [], rfl, rfl, (), [], [], rfl, ⟨rfl, Nat.zero_le _⟩, ?_⟩
        have other : isAead context.cipher ≠ 2 := suits
        rw [if_neg (not_not.mpr rfl), if_neg other]
        exact ⟨rfl, rfl⟩
    | keys length some_ fits localMac remoteMac =>
        refine ⟨length, [length], _, rfl, rfl, (), [], _, rfl, ⟨rfl, fits⟩, ?_⟩
        rw [if_pos some_]
        exact ⟨localMac, _, _, rfl, rfl, remoteMac, _, [], by simp, rfl, rfl, rfl⟩
    | chacha states =>
        refine ⟨0, [0], _, rfl, rfl, (), [], _, rfl, ⟨rfl, Nat.zero_le _⟩, ?_⟩
        have chacha : isAead context.cipher = 2 := suits
        rw [if_neg (not_not.mpr rfl), if_pos chacha]
        exact ⟨states, _, [], (List.append_nil _).symm, rfl, rfl, rfl⟩

/-- The reader of the master key accepts a counted section, by cases on whether its count is
zero.
-/
theorem importMasterKey_parses (context : TLSContext lib)
    : Imports (importMasterKey context)
        (fun piece c => ∃ masterKey : Counted 16,
          piece = be16 (UInt16.ofNat masterKey.bytes.length) ++ masterKey.bytes
          ∧ c = { context with
              masterKey :=
                if masterKey.bytes = [] then context.masterKey
                else ⟨masterKey.bytes, Nat.lt_trans masterKey.small (by decide)⟩ })
        (fun _ => False) := by
  -- a length of zero keeps the master key the context has
  have parses : Imports (importMasterKey context) _ _ :=
    .bind .word16 fun _ => .ite _ (.bind (.take _) fun _ => .pure _) (.pure _)
  refine parses.congr ?_ (by simp)
  intro piece c
  constructor
  · rintro ⟨length, _, _, rfl, rfl, rest⟩
    split at rest
    case isTrue some_ =>
      obtain ⟨masterKey, _, _, rfl, rfl, rfl, rfl⟩ := rest
      refine ⟨.ofVector masterKey length.toNat_lt, by simp [Counted.ofVector], ?_⟩
      have nonempty : masterKey.toList ≠ [] := by
        intro empty
        have zero := congrArg List.length empty
        rw [Vector.length_toList] at zero
        exact some_ (UInt16.toNat_inj.mp zero)
      simp [Counted.ofVector, nonempty]
    case isFalse zero =>
      obtain rfl : length = 0 := by simpa using zero
      obtain ⟨rfl, rfl⟩ := rest
      exact ⟨.empty 16, by simp [Counted.empty], by simp [Counted.empty]⟩
  · rintro ⟨⟨masterKey, small⟩, rfl, rfl⟩
    have length : (UInt16.ofNat masterKey.length).toNat = masterKey.length :=
      UInt16.toNat_ofNat_of_lt' small
    refine ⟨UInt16.ofNat masterKey.length, _, masterKey, rfl, rfl, ?_⟩
    cases masterKey with
    | nil => exact ⟨rfl, rfl⟩
    | cons b rest =>
        have some_ : UInt16.ofNat (b :: rest).length ≠ 0 := by
          intro zero
          rw [zero] at length
          simp at length
        rw [if_pos some_]
        exact ⟨⟨(b :: rest).toArray, by rw [length]; rfl⟩, _, [], by simp, rfl, rfl, rfl⟩

/-- The reader of the sequence numbers accepts any sixteen bytes. -/
theorem importSequenceNumbers_parses (context : TLSContext lib)
    : Imports (importSequenceNumbers context)
        (fun piece c => ∃ localNumber remoteNumber,
          piece = be64 localNumber ++ be64 remoteNumber
          ∧ c = { context with
              localSequenceNumber := localNumber, remoteSequenceNumber := remoteNumber })
        (fun _ => False) := by
  have parses : Imports (importSequenceNumbers context) _ _ :=
    .bind (.take 16) fun _ => .pure _
  refine parses.congr ?_ (by simp)
  intro piece c
  constructor
  · rintro ⟨numbers, _, _, rfl, rfl, rfl, rfl⟩
    refine ⟨_, _, ?_, rfl⟩
    have length := numbers.length_toList
    rw [ntohll, ntohll, be64_ofNat_value (by simp), be64_ofNat_value (by simp)]
    rw [List.take_of_length_le (by simp : (numbers.toList.drop 8).length ≤ 8)]
    simp
  · rintro ⟨localNumber, remoteNumber, rfl, rfl⟩
    refine ⟨⟨(be64 localNumber ++ be64 remoteNumber).toArray, by simp⟩, _, [], ?_, rfl, rfl, ?_⟩
    · simp
    · have first : ntohll (be64 localNumber ++ be64 remoteNumber) 0 = localNumber := by
        rw [ntohll, List.drop_zero, List.take_left' (length_be64 _), ofNat_value_be64]
      have second : ntohll (be64 localNumber ++ be64 remoteNumber) 8 = remoteNumber := by
        rw [ntohll, List.drop_left' (length_be64 _), List.take_of_length_le (by simp),
          ofNat_value_be64]
      simp only [Vector.toList_mk, first, second]

/-- The reader of the DTLS section accepts a zero flag alone and any other with both epochs. -/
theorem importDtls_parses (context : TLSContext lib)
    : Imports (importDtls context)
        (fun piece c => ∃ dtls : Dtls, piece = dtls.bytes ∧ c = dtls.install context)
        (fun _ => False) := by
  -- the epochs are there only behind a flag that is not zero
  have parses : Imports (importDtls context) _ _ :=
    .bind (.take 1) fun _ => .ite _ (.bind (.take 4) fun _ => .pure _) (.pure _)
  refine parses.congr ?_ (by simp)
  intro piece c
  constructor
  · rintro ⟨flag, _, _, rfl, rfl, rest⟩
    obtain ⟨dtls, single⟩ := List.length_eq_one_iff.mp flag.length_toList
    rw [single] at rest ⊢
    split at rest
    case isTrue some_ =>
      obtain ⟨epochs, _, _, rfl, rfl, rfl, rfl⟩ := rest
      refine ⟨.epochs dtls some_ (ntohs epochs.toList 0) (ntohs epochs.toList 2), ?_, rfl⟩
      simp only [Dtls.bytes]
      rw [ntohs, ntohs, be16_ofNat_value (by simp), be16_ofNat_value (by simp),
        List.take_of_length_le (by simp : (epochs.toList.drop 2).length ≤ 2)]
      simp
    case isFalse zero =>
      obtain rfl : dtls = 0 := by simpa [get8] using zero
      obtain ⟨rfl, rfl⟩ := rest
      exact ⟨.none, rfl, rfl⟩
  · rintro ⟨dtls, rfl, rfl⟩
    cases dtls with
    | none => exact ⟨#v[0], [0], [], rfl, rfl, rfl, rfl⟩
    | epochs dtls some_ epochLocal epochRemote =>
        refine ⟨#v[dtls], [dtls], _, rfl, rfl, ?_⟩
        have first : ntohs (be16 epochLocal ++ be16 epochRemote) 0 = epochLocal := by
          rw [ntohs, List.drop_zero, List.take_left' (length_be16 _), ofNat_value_be16]
        have second : ntohs (be16 epochLocal ++ be16 epochRemote) 2 = epochRemote := by
          rw [ntohs, List.drop_left' (length_be16 _), List.take_of_length_le (by simp),
            ofNat_value_be16]
        have flag : get8 #v[dtls].toList 0 = dtls := rfl
        rw [flag, if_pos some_]
        refine ⟨⟨(be16 epochLocal ++ be16 epochRemote).toArray, by simp⟩, _, [],
          (List.append_nil _).symm, rfl, rfl, ?_⟩
        simp only [Dtls.install, Vector.toList_mk, first, second]

/-- A count read as a signed one is itself below `2 ^ 31` and negative above. -/
theorem toInt_toInt32 (n : UInt32)
    : n.toInt32.toInt = if n.toNat < 2 ^ 31 then (n.toNat : Int) else n.toNat - 4294967296 := by
  have bits : n.toInt32.toInt = n.toBitVec.toInt := rfl
  rw [bits, BitVec.toInt_eq_toNat_cond, UInt32.toNat_toBitVec]
  split <;> split <;> omega

/-- What follows the length of a buffer. -/
theorem bufferBytes_parses (kept : Counted 32) (length : UInt32)
    : Imports
        (do
          check length.toInt32.toInt
          if length ≠ 0 then
            let buffer ← copy length.toNat
            pure (.ofVector buffer length.toNat_lt)
          else pure kept)
        (fun piece c => length.toNat < 2 ^ 31 ∧ ∃ buffer : Vector UInt8 length.toNat,
          piece = buffer.toList
          ∧ c = if length ≠ 0 then .ofVector buffer length.toNat_lt else kept)
        (fun _ => 2 ^ 31 ≤ length.toNat) := by
  -- the source's size check is signed: a length from `2 ^ 31` on passes it as a negative
  -- number
  by_cases small : length.toNat < 2 ^ 31
  · have parses : Imports (do
        let buffer ← take length.toNat
        return if length ≠ 0 then Counted.ofVector buffer length.toNat_lt else kept) _ _ :=
      .bind (.take _) fun _ => .pure _
    -- below the sign bit the check and the copy are one `take`, also for the length zero
    have same : (do
        check length.toInt32.toInt
        if length ≠ 0 then
          let buffer ← copy length.toNat
          pure (.ofVector buffer length.toNat_lt)
        else pure kept)
        = do
          let buffer ← take length.toNat
          return if length ≠ 0 then Counted.ofVector buffer length.toNat_lt else kept := by
      rw [toInt_toInt32, if_pos small]
      funext text pos
      by_cases zero : length = 0
      · subst zero
        by_cases inside : pos ≤ text.length
        · have enough : ¬ text.length < pos := by omega
          have zero : ¬ (text.length : Int) - pos < 0 := by omega
          simp [bind, pure, check, take_eq, inside, enough, zero]
        · have few : text.length < pos := by omega
          simp [bind, check, take_eq, inside, few]
      · have some_ : length ≠ 0 := zero
        simp only [if_pos some_]
        simp only [take, bind]
        cases check length.toNat text pos <;> rfl
    rw [same]
    refine parses.congr ?_ ?_
    · intro piece c
      constructor
      · rintro ⟨buffer, _, _, rfl, rfl, rfl, rfl⟩
        exact ⟨small, buffer, List.append_nil _, rfl⟩
      · rintro ⟨-, buffer, rfl, rfl⟩
        exact ⟨buffer, _, [], (List.append_nil _).symm, rfl, rfl, rfl⟩
    · intro content
      simpa using small
  · have negative : length.toInt32.toInt < 0 := by
      have bound := length.toNat_lt
      rw [toInt_toInt32, if_neg small]
      omega
    have some_ : length ≠ 0 := by
      rintro rfl
      exact small (by decide)
    -- and from the sign bit on the copy always runs over the end of a buffer this short
    have fails {text : Bytes} {pos : Nat} (short : text.length < 2 ^ 31)
        (inside : pos ≤ text.length)
        : (do
            check length.toInt32.toInt
            if length ≠ 0 then
              let buffer ← copy length.toNat
              pure (Counted.ofVector buffer length.toNat_lt)
            else pure kept : Parser (Counted 32)) text pos
          = .error .outside := by
      have enough : ¬ (length.toInt32.toInt > text.length - pos ∨ text.length < pos) := by omega
      have beyond : ¬ pos + length.toNat ≤ text.length := by omega
      simp [bind, check, copy, some_, enough, beyond]
    constructor
    case accepts =>
      intro front content next c short
      rw [fails short (by simp)]
      refine ⟨fun impossible => (by cases impossible), ?_⟩
      rintro ⟨_, _, _, ⟨small', -⟩, -⟩
      exact absurd small' small
    case strays =>
      intro front content short
      rw [fails short (by simp)]
      simpa using small

/-- The length decides: a buffer that may be there, or a length for which the check says
nothing.
-/
theorem importBuffer_parses (kept : Counted 32)
    : Imports (importBuffer kept)
        (fun piece c => ∃ buffer : Sent, piece = buffer.section ∧ c = buffer.received kept)
        (fun content => ∃ (length : UInt32) (rest : Bytes), 2 ^ 31 ≤ length.toNat
          ∧ content = be32 length ++ rest) := by
  have parses : Imports (importBuffer kept) _ _ :=
    .bind .word32 fun length => bufferBytes_parses kept length
  refine parses.congr ?_ ?_
  · intro piece c
    constructor
    · rintro ⟨length, _, _, rfl, rfl, small, buffer, rfl, rfl⟩
      refine ⟨.ofVector buffer small, by simp [Sent.section, Counted.ofVector], ?_⟩
      by_cases zero : length = 0
      · subst zero
        have empty : buffer.toList = [] := List.length_eq_zero_iff.mp buffer.length_toList
        simp [Sent.received, Counted.ofVector, empty]
      · have nonempty : buffer.toList ≠ [] := by
          intro empty
          have length_ := buffer.length_toList
          rw [empty] at length_
          exact zero (UInt32.toNat_inj.mp length_.symm)
        simp [Sent.received, Counted.ofVector, zero, nonempty]
    · rintro ⟨⟨buffer, small⟩, rfl, rfl⟩
      have length : (UInt32.ofNat buffer.length).toNat = buffer.length :=
        UInt32.toNat_ofNat_of_lt' (Nat.lt_trans small (by decide))
      refine ⟨UInt32.ofNat buffer.length, _, buffer, rfl, rfl, by rwa [length],
        ⟨buffer.toArray, by simp [length]⟩, rfl, ?_⟩
      by_cases empty : buffer = []
      · subst empty
        rfl
      · have some_ : UInt32.ofNat buffer.length ≠ 0 := by
          intro zero
          rw [zero] at length
          exact empty (List.length_eq_zero_iff.mp length.symm)
        simp [Sent.received, Counted.ofVector, empty, some_]
  · intro content
    constructor
    · rintro (impossible | ⟨length, _, rest, rfl, rfl, large⟩)
      · exact impossible.elim
      · exact ⟨length, rest, large, rfl⟩
    · rintro ⟨length, rest, large, rfl⟩
      exact Or.inr ⟨length, _, rest, rfl, rfl, large⟩

/-- Making the ciphers leaves the suite as it is. -/
theorem installKeys_cipher {context c : TLSContext lib} {keyLengths : Nat} {temp : Bytes}
    {localIv remoteIv : Vector UInt8 16}
    (installed : installKeys context keyLengths temp localIv remoteIv = some c)
    : c.cipher = context.cipher := by
  obtain ⟨crypto, -, rfl⟩ := Option.map_eq_some_iff.mp installed
  rfl

/-- Taking the initialization vectors leaves the suite as it is. -/
@[simp] theorem installIvs_cipher (context : TLSContext lib) (ivLen : Nat)
    (localIv remoteIv : Vector UInt8 16)
    : (installIvs context ivLen localIv remoteIv).cipher = context.cipher := by
  unfold installIvs
  split
  · rfl
  · split <;> rfl

/-- The reader of the secrets accepts the sections that suit the cipher and give its ciphers;
it strays where the content ends before the length of the MACs.
-/
theorem importSecrets_parses (context : TLSContext lib) (stack : Stack) (ivLen : Nat)
    (localIv remoteIv : Vector UInt8 16)
    : Imports (importSecrets context stack ivLen localIv remoteIv)
        (fun piece c => ∃ secrets : Secrets, secrets.macs.Suits context.cipher
          ∧ piece = secrets.bytes
          ∧ secrets.install context stack ivLen localIv remoteIv = some c)
        (fun content => content = [] ∨ ∃ keys : Counted 8, content = keys.section
          ∧ (Secrets.installExported keys context stack ivLen localIv remoteIv).isSome) := by
  -- the shape comes from the parser, field by field; only its reading as `Secrets` is left
  have parses : Imports (importSecrets context stack ivLen localIv remoteIv) _ _ :=
    .bind .byte fun _ => .bind (.take _) fun _ => .bind (.attempt _) fun _ =>
      .bind (importMacs_parses _) fun _ => .bind (importMasterKey_parses _) fun _ =>
        importSequenceNumbers_parses _
  refine parses.congr ?_ ?_
  · intro piece c
    constructor
    · rintro ⟨length, _, _, rfl, rfl, keys, _, _, rfl, rfl, c₁, _, _, rfl, ⟨rfl, installed⟩, _,
        _, _, rfl, ⟨macs, suits, rfl, rfl⟩, _, _, _, rfl, ⟨masterKey, rfl, rfl⟩, localNumber,
        remoteNumber, rfl, rfl⟩
      rw [installKeys_cipher installed, installIvs_cipher] at suits
      refine ⟨⟨.ofVector keys length.toNat_lt, macs, masterKey, localNumber, remoteNumber⟩,
        suits, ?_, ?_⟩
      · simp [Secrets.bytes, Counted.ofVector]
      · have size : keys.toList.length = length.toNat := keys.length_toList
        simp only [Secrets.install, Secrets.installExported, Counted.ofVector, size]
          at installed ⊢
        rw [installed]
        rfl
    · rintro ⟨⟨⟨keys, small⟩, macs, masterKey, localNumber, remoteNumber⟩, suits, rfl,
        installed⟩
      obtain ⟨c₁, keyed, rfl⟩ := Option.map_eq_some_iff.mp installed
      have length : (UInt8.ofNat keys.length).toNat = keys.length :=
        UInt8.toNat_ofNat_of_lt' small
      refine ⟨UInt8.ofNat keys.length, _, _, rfl, rfl, ⟨keys.toArray, by simp [length]⟩, keys,
        _, rfl, rfl, c₁, [], _, rfl, ⟨rfl, ?_⟩, _, _, _, rfl, ⟨macs, ?_, rfl, rfl⟩, _, _, _,
        rfl, ⟨masterKey, rfl, rfl⟩, localNumber, remoteNumber, rfl, rfl⟩
      · simp only [Counted.ofVector, length]
        exact keyed
      · rwa [installKeys_cipher keyed, installIvs_cipher]
  -- strays only where the length of the MAC keys is missing, just behind the exported keys
  · intro content
    refine or_congr Iff.rfl ?_
    constructor
    · rintro ⟨length, _, _, rfl, rfl, impossible
        | ⟨keys, _, _, rfl, rfl, impossible | ⟨c₁, _, _, rfl, ⟨rfl, installed⟩, strays⟩⟩⟩
      · exact impossible.elim
      · exact impossible.elim
      · rcases strays with rfl | ⟨_, _, _, _, _, impossible | ⟨_, _, _, _, _, impossible⟩⟩
        · refine ⟨.ofVector keys length.toNat_lt, ?_, ?_⟩
          · simp [Counted.section, Counted.ofVector]
          · have size : keys.toList.length = length.toNat := keys.length_toList
            refine Option.isSome_iff_exists.mpr ⟨c₁, ?_⟩
            simp only [Secrets.installExported, Counted.ofVector, size]
            exact installed
        · exact impossible.elim
        · exact impossible.elim
    · rintro ⟨⟨keys, small⟩, rfl, installed⟩
      obtain ⟨c₁, keyed⟩ := Option.isSome_iff_exists.mp installed
      have length : (UInt8.ofNat keys.length).toNat = keys.length :=
        UInt8.toNat_ofNat_of_lt' small
      refine ⟨UInt8.ofNat keys.length, _, keys, rfl, rfl, Or.inr ⟨⟨keys.toArray,
        by simp [length]⟩, keys, [], (List.append_nil _).symm, rfl, Or.inr ⟨c₁, [], [], rfl,
        ⟨rfl, ?_⟩, Or.inl rfl⟩⟩⟩
      simp only [Counted.ofVector, length]
      exact keyed

/-- Importing the three buffers strays behind the length of one of them. -/
theorem importBuffers_parses (context : TLSContext lib)
    : Imports (importBuffers context)
        (fun piece c => ∃ tlsBuffer messageBuffer applicationBuffer : Sent,
          piece = tlsBuffer.section ++ (messageBuffer.section ++ applicationBuffer.section)
          ∧ c = { context with
              tlsBuffer := tlsBuffer.received context.tlsBuffer
              messageBuffer := messageBuffer.received context.messageBuffer
              applicationBuffer := applicationBuffer.received context.applicationBuffer
              cipherSpecSet := 1 })
        (fun content => ∃ (before : List Sent) (length : UInt32) (rest : Bytes),
          before.length < 3 ∧ 2 ^ 31 ≤ length.toNat
          ∧ content = before.flatMap Sent.section ++ be32 length ++ rest) := by
  have parses : Imports (importBuffers context) _ _ :=
    .bind (importBuffer_parses _) fun _ => .bind (importBuffer_parses _) fun _ =>
      .bind (importBuffer_parses _) fun _ => .pure _
  refine parses.congr ?_ ?_
  · intro piece c
    constructor
    · rintro ⟨_, _, _, rfl, ⟨tlsBuffer, rfl, rfl⟩, _, _, _, rfl, ⟨messageBuffer, rfl, rfl⟩, _, _,
        _, rfl, ⟨applicationBuffer, rfl, rfl⟩, rfl, rfl⟩
      exact ⟨tlsBuffer, messageBuffer, applicationBuffer, by simp, rfl⟩
    · rintro ⟨tlsBuffer, messageBuffer, applicationBuffer, rfl, rfl⟩
      exact ⟨_, _, _, rfl, ⟨tlsBuffer, rfl, rfl⟩, _, _, _, rfl, ⟨messageBuffer, rfl, rfl⟩, _, _,
        [], (List.append_nil _).symm, ⟨applicationBuffer, rfl, rfl⟩, rfl, rfl⟩
  · intro content
    constructor
    · rintro (⟨length, rest, large, rfl⟩ | ⟨_, _, _, rfl, ⟨tlsBuffer, rfl, rfl⟩,
        ⟨length, rest, large, rfl⟩ | ⟨_, _, _, rfl, ⟨messageBuffer, rfl, rfl⟩,
          ⟨length, rest, large, rfl⟩ | ⟨_, _, _, _, _, impossible⟩⟩⟩)
      · exact ⟨[], length, rest, by simp, large, by simp⟩
      · exact ⟨[tlsBuffer], length, rest, by simp, large, by simp⟩
      · exact ⟨[tlsBuffer, messageBuffer], length, rest, by simp, large, by simp⟩
      · exact impossible.elim
    · rintro ⟨before, length, rest, few, large, rfl⟩
      rcases before with _ | ⟨tlsBuffer, _ | ⟨messageBuffer, _ | ⟨_, _⟩⟩⟩
      · exact Or.inl ⟨length, rest, large, by simp⟩
      · exact Or.inr ⟨_, _, _, by simp, ⟨tlsBuffer, rfl, rfl⟩, Or.inl ⟨length, rest, large, rfl⟩⟩
      · exact Or.inr ⟨_, _, _, by simp, ⟨tlsBuffer, rfl, rfl⟩, Or.inr ⟨_, _, _, rfl,
          ⟨messageBuffer, rfl, rfl⟩, Or.inl ⟨length, rest, large, rfl⟩⟩⟩
      · exact absurd few (by simp)

end Parsers

end PrismHTTP.Tls
