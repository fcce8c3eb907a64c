import PrismHTTP.Tls.RoundTrip

/-! The keys of a handshake are the keys of its export.
The pseudo-random function gives one block of bytes, which is cut up into MAC keys, keys and
initialization vectors for both directions.
-/

namespace PrismHTTP.Tls
open ByteLayout BigEndian

variable {lib : CipherLib}

/-- The end of `_private_tls_expand_key`, for a key and a vector of one's own and of the peer,
which are what their pointers point to.
-/
def installDerived (context : TLSContext lib) (ivLength : Nat) (key iv peerKey peerIv : Bytes)
    : Option (TLSContext lib) :=
  let length := keyLength context.cipher
  let aead := isAead context.cipher ≠ 0
  match cryptoCreate context.cipher length key (getRun 16 iv 0) peerKey (getRun 16 peerIv 0) with
  | none => none
  | some crypto =>
      some { context with
        localMac :=
          if aead then overlay context.localMac (iv.take ivLength) else context.localMac
        remoteMac :=
          if aead then overlay context.remoteMac (peerIv.take ivLength) else context.remoteMac
        crypto := crypto
        exportableKeys :=
          if context.exportable ≠ 0 then
            ⟨key.take length ++ peerKey.take length, by
              have small : length = 0 ∨ length = 16 ∨ length = 32 := keyLength_eq _
              simp only [List.length_append, List.length_take]
              omega⟩
          else context.exportableKeys }

/-- `_private_tls_expand_key`, with what the pseudo-random function makes of the master key;
nothing where it returns 0.
-/
def expandKey (context : TLSContext lib) (key : Vector UInt8 192) : Option (TLSContext lib) :=
  if context.masterKey.bytes = [] then none
  else
    let keyLength := keyLength context.cipher
    let macLength := macLength context.cipher
    if keyLength = 0 ∨ macLength = 0 then none
    else
      let key := key.toList
      let ivLength :=
        if isAead context.cipher = 2 then tlsChacha20IvLength
        else if isAead context.cipher ≠ 0 then tlsAesGcmIvLength
        else tlsAesIvLength
      let aead := isAead context.cipher ≠ 0
      let clientMac := key.take macLength
      let serverMac := (key.drop macLength).take macLength
      let pos := if aead then 0 else macLength + macLength
      let clientKey := key.drop pos
      let serverKey := key.drop (pos + keyLength)
      let clientIv := key.drop (pos + keyLength + keyLength)
      let serverIv := key.drop (pos + keyLength + keyLength + ivLength)
      if context.isServer ≠ 0 then
        let context := { context with
          localMac := if aead then context.localMac else overlay context.localMac serverMac
          remoteMac := if aead then context.remoteMac else overlay context.remoteMac clientMac }
        installDerived context ivLength serverKey serverIv clientKey clientIv
      else
        let context := { context with
          localMac := if aead then context.localMac else overlay context.localMac clientMac
          remoteMac := if aead then context.remoteMac else overlay context.remoteMac serverMac }
        installDerived context ivLength clientKey clientIv serverKey serverIv

/-- A suite is a GCM one, a ChaCha20 one, or neither. -/
theorem isAead_eq (cipher : UInt16)
    : isAead cipher = 0 ∨ isAead cipher = 1 ∨ isAead cipher = 2 := by
  unfold isAead
  split
  · exact Or.inr (Or.inl rfl)
  · split
    · exact Or.inr (Or.inr rfl)
    · exact Or.inl rfl

/-- A ChaCha20 suite has keys of 32 bytes: its number is in both lists. -/
theorem keyLength_chacha {cipher : UInt16} (chacha : isAead cipher = 2)
    : keyLength cipher = 32 := by
  unfold isAead at chacha
  split at chacha
  case isTrue => cases chacha
  case isFalse =>
    split at chacha
    case isTrue listed =>
      simp only [List.mem_cons, List.not_mem_nil, or_false] at listed
      rcases listed with rfl | rfl | rfl | rfl <;> rfl
    case isFalse => cases chacha

/-- Key setup with 32 bytes reads no more of its key, word by word. -/
theorem chachaKeysetup_take (x : ChachaCtx) (key : Bytes)
    : chachaKeysetup x (key.take 32) 256 = chachaKeysetup x key 256 := by
  have byte {i : Nat} (early : i < 32) : get8 (key.take 32) i = get8 key i := by
    simp [get8, List.getD_eq_getElem?_getD, List.getElem?_take_of_lt early]
  have half {i : Nat} (early : i < 16)
      : get8 ((key.take 32).drop 16) i = get8 (key.drop 16) i := by
    simp only [get8, List.getD_eq_getElem?_getD, List.getElem?_drop]
    rw [List.getElem?_take_of_lt (by omega)]
  have words : (chachaKeysetup x (key.take 32) 256).input = (chachaKeysetup x key 256).input := by
    refine Vector.ext fun i inside => ?_
    simp only [chachaKeysetup, Vector.getElem_ofFn, if_pos]
    split
    · rfl
    · split
      · exact get32_congr (byte (by omega)) (byte (by omega)) (byte (by omega)) (byte (by omega))
      · split
        · exact get32_congr (half (by omega)) (half (by omega)) (half (by omega))
            (half (by omega))
        · rfl
  exact congrArg (ChachaCtx.mk · x.ks) words

/-- A nonce leaves constants and key words as they are. -/
theorem take_chachaIvsetup (x : ChachaCtx) (iv : Bytes)
    : (chachaIvsetup96bitnonce x iv).input.toList.take 12 = x.input.toList.take 12 := by
  refine List.ext_getElem (by simp) fun i inside _ => ?_
  have early : i < 12 := by simp at inside; omega
  rw [List.getElem_take, List.getElem_take]
  simp [chachaIvsetup96bitnonce, show i ≠ 12 by omega, show ¬ 12 < i by omega]

/-- A new ChaCha20 state has its key, for a key that is long enough. -/
theorem hasKey_setup {key : Bytes} (iv : Bytes) (long : 32 ≤ key.length)
    : (chachaIvsetup96bitnonce (chachaKeysetup chachaBlank key (32 * 8)) iv).HasKey
        (key.take 32) := by
  have length : (key.take 32).length = 32 := by
    rw [List.length_take, Nat.min_eq_left long]
  rw [ChachaCtx.HasKey, take_chachaIvsetup, length, chachaKeysetup_take]

/-- The ciphers that are created use the two keys they are given, by cases on the kind of the
suite.
-/
theorem cryptoCreate_uses {cipher : UInt16} {key peerKey : Bytes} {iv peerIv : Vector UInt8 16}
    {crypto : Crypto lib} (long : keyLength cipher ≤ key.length)
    (peerLong : keyLength cipher ≤ peerKey.length)
    (made : cryptoCreate cipher (keyLength cipher) key iv peerKey peerIv = some crypto)
    : crypto.Uses cipher (key.take (keyLength cipher)) (peerKey.take (keyLength cipher)) := by
  unfold cryptoCreate at made
  split at made
  case isTrue chacha =>
    obtain rfl := Option.some.inj made
    rw [keyLength_chacha chacha] at long peerLong ⊢
    exact ⟨chacha, hasKey_setup _ long, hasKey_setup _ peerLong⟩
  case isFalse other =>
    split at made
    case isTrue some_ =>
      have gcm : isAead cipher = 1 := by
        have aead := isAead_eq cipher
        omega
      split at made
      case h_1 started peerStarted =>
        obtain rfl := Option.some.inj made
        exact ⟨gcm, started, peerStarted⟩
      case h_2 => cases made
    case isFalse zero =>
      split at made
      case h_1 started peerStarted =>
        obtain rfl := Option.some.inj made
        refine ⟨not_not.mp zero, ?_, ?_⟩
        · rwa [lib.getiv_start started]
        · rwa [lib.getiv_start peerStarted]
      case h_2 => cases made

/-- Ciphers that use keys exist, by cases on their kind. -/
theorem created_of_uses {cipher : UInt16} {key peerKey : Bytes} {crypto : Crypto lib}
    (uses : crypto.Uses cipher key peerKey)
    : crypto.created ≠ 0 := by
  cases crypto with
  | none => exact uses.elim
  | cbc | gcm | chacha => simp [Crypto.created]

/-- A context whose exported keys are those of its ciphers, its own key first, with something to
export.
-/
def TLSContext.Derived (context : TLSContext lib) : Prop :=
  let keys := context.exportableKeys.bytes
  let half := keyLength context.cipher
  keys.length = half + half
  ∧ context.crypto.Uses context.cipher (keys.take half) ((keys.drop half).take half)
  ∧ keys ≠ []
  ∧ context.crypto.created ≠ 0

/-- An importer gets the ciphers of such a context back from its keys. -/
theorem TLSContext.Derived.keyed {context : TLSContext lib} (derived : context.Derived)
    : context.Keyed :=
  ⟨derived.1, derived.2.1.restorable⟩

/-- The last part of key expansion exports the keys it has made the ciphers from. -/
theorem installDerived_derived {context c : TLSContext lib} {ivLength : Nat}
    {key iv peerKey peerIv : Bytes} (exportable : context.exportable ≠ 0)
    (some_ : keyLength context.cipher ≠ 0) (long : keyLength context.cipher ≤ key.length)
    (peerLong : keyLength context.cipher ≤ peerKey.length)
    (installed : installDerived context ivLength key iv peerKey peerIv = some c)
    : c.Derived := by
  unfold installDerived at installed
  dsimp only at installed
  split at installed
  case h_1 => cases installed
  case h_2 crypto made =>
    obtain rfl := Option.some.inj installed
    have uses := cryptoCreate_uses long peerLong made
    have length : (key.take (keyLength context.cipher)).length = keyLength context.cipher := by
      rw [List.length_take, Nat.min_eq_left long]
    have keys : (key.take (keyLength context.cipher)
        ++ peerKey.take (keyLength context.cipher)).length
        = keyLength context.cipher + keyLength context.cipher := by
      rw [List.length_append, length, List.length_take, Nat.min_eq_left peerLong]
    refine ⟨?_, ?_, ?_, created_of_uses uses⟩
    · simp only [if_pos exportable]
      exact keys
    · simp only [if_pos exportable]
      rw [List.take_left' length, List.drop_left' length, List.take_take, Nat.min_self]
      exact uses
    · simp only [if_pos exportable]
      intro empty
      rw [empty] at keys
      simp at keys
      omega

/-- Whatever the role and the suite, key expansion leaves an exportable context with the keys of
its ciphers to export, its own key first: the keys of AES, and the key words of the ChaCha20
states. By cases on the role, whose two keys lie inside the block.
-/
theorem expandKey_derived {context c : TLSContext lib} {key : Vector UInt8 192}
    (exportable : context.exportable ≠ 0) (expanded : expandKey context key = some c)
    : c.Derived := by
  have length := keyLength_eq context.cipher
  have mac := macLength_le context.cipher
  unfold tlsMaxMacSize at mac
  unfold expandKey at expanded
  split at expanded
  case isTrue => cases expanded
  case isFalse =>
    dsimp only at expanded
    split at expanded
    case isTrue => cases expanded
    case isFalse lengths =>
      rw [not_or] at lengths
      -- the MAC keys come first, and an AEAD suite has none
      have pos : (if isAead context.cipher ≠ 0 then 0
          else macLength context.cipher + macLength context.cipher) ≤ 96 := by
        split <;> omega
      have clientKey : keyLength context.cipher
          ≤ (key.toList.drop (if isAead context.cipher ≠ 0 then 0
            else macLength context.cipher + macLength context.cipher)).length := by
        rw [List.length_drop, Vector.length_toList]
        omega
      have serverKey : keyLength context.cipher
          ≤ (key.toList.drop ((if isAead context.cipher ≠ 0 then 0
            else macLength context.cipher + macLength context.cipher)
            + keyLength context.cipher)).length := by
        rw [List.length_drop, Vector.length_toList]
        omega
      -- which half is the local key depends on the side, and both are long enough
      split at expanded
      case isTrue =>
        refine installDerived_derived ?_ ?_ ?_ ?_ expanded
        · exact exportable
        · exact lengths.1
        · exact serverKey
        · exact clientKey
      case isFalse =>
        refine installDerived_derived ?_ ?_ ?_ ?_ expanded
        · exact exportable
        · exact lengths.1
        · exact clientKey
        · exact serverKey

/-- A context in the midst of its handshake. -/
def handshakeContext (cipher : UInt16) : TLSContext sampleLib :=
  { tlsCreateContext sampleLib 1 tlsV12 with
    cipher := cipher
    exportable := 1
    masterKey := ⟨List.replicate 48 1, by decide⟩ }

/-- A server with AES-128-GCM, and one with ChaCha20. -/
theorem expandKey_derived_sample
    : ((expandKey (handshakeContext 0xc02f) (Vector.replicate 192 2)).get rfl).Derived
      ∧ ((expandKey (handshakeContext 0xcca8) (Vector.ofFn fun i => i.val.toUInt8)).get
        rfl).Derived :=
  ⟨expandKey_derived (by decide : (handshakeContext 0xc02f).exportable ≠ 0)
      (Option.some_get _).symm,
    expandKey_derived (by decide : (handshakeContext 0xcca8).exportable ≠ 0)
      (Option.some_get _).symm⟩

end PrismHTTP.Tls
