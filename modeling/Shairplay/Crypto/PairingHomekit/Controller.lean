import Shairplay.Crypto.ChachaTransport.Framing
import Shairplay.Crypto.PairingHomekit.Agreement

/-!
# The controller's side of HomeKit pairing

What a controller sends in pair-setup and pair-verify and which answers it takes, with the
byte conventions of the server. Whatever one side builds the other reads as it was meant,
if the algorithms do what both sides expect of them.
-/

namespace Shairplay.Crypto

open Lib Bytes

/-- What both sides of a pairing expect of the algorithms. -/
structure CryptoLib.Works (lib : CryptoLib) : Prop where
  aead : lib.aead.Inverts
  hkdf : ∀ salt secret info, (lib.hkdf salt secret info 32).isSome = true
  length_publicKey : ∀ seed, (lib.ed25519.publicKey seed).length = 32
  validKey : ∀ seed, lib.ed25519.validKey (lib.ed25519.publicKey seed) = true
  length_sign : ∀ seed msg, (lib.ed25519.sign seed msg).length = 64
  verify_sign : ∀ seed msg,
    lib.ed25519.verify (lib.ed25519.publicKey seed) msg (lib.ed25519.sign seed msg) = true
  length_ephemeral : ∀ secret, (lib.x25519.publicKey secret).length = 32
  agree : ∀ a b, lib.x25519.diffieHellman a (lib.x25519.publicKey b) =
    lib.x25519.diffieHellman b (lib.x25519.publicKey a)

/-- A value of at most 255 bytes takes one chunk. -/
theorem TlvValues.entryChunks_of_short {entry : UInt8 × List UInt8} (short : entry.2.length ≤ 255) :
    entryChunks entry = [entry] := by
  obtain ⟨tag, value⟩ := entry
  cases value with
  | nil => rfl
  | cons byte bytes =>
    have all : (byte :: bytes).take 255 = byte :: bytes := List.take_of_length_le short
    have rest : (byte :: bytes).drop 255 = [] := List.drop_eq_nil_of_le short
    have none : ∀ count, Segment.chunksUpTo 255 count ([] : List UInt8) = [] := by
      intro count
      cases count <;> rfl
    simp only [entryChunks, reduceCtorEq, if_false, Segment.chunks, List.length_cons,
      Segment.chunksUpTo]
    rw [all, rest, none]
    rfl

theorem TlvValues.length_encode_le {values : TlvValues}
    (short : ∀ entry ∈ values.entries, entry.2.length ≤ 255) :
    values.encode.length ≤ 257 * values.entries.length := by
  obtain ⟨entries⟩ := values
  rw [encode]
  induction entries with
  | nil => exact Nat.le_refl 0
  | cons entry entries ih =>
    rw [List.forall_mem_cons] at short
    have rest := ih short.2
    have one : (encodeChunk entry.1 entry.2).length = entry.2.length + 2 := by simp
    rw [List.flatMap_cons, entryChunks_of_short short.1, List.flatMap_append, List.length_append]
    refine (Nat.add_le_add_left rest _).trans ?_
    simp only [List.flatMap_singleton, List.length_cons, one]
    omega

/-- Three short entries fit in one block of the transport. -/
theorem TlvValues.encode_fits {values : TlvValues}
    (short : ∀ entry ∈ values.entries, entry.2.length ≤ 255) (few : values.entries.length ≤ 3) :
    values.encode.length ≤ maxBlockLen := by
  have length := length_encode_le short
  rw [maxBlockLen]
  omega

/-- Two entries with different tags are read back as they were written. -/
theorem decodeMessage_two {first second : UInt8} (v₁ v₂ : List UInt8) (h : first ≠ second) :
    decodeMessage ((({} : TlvValues).add first v₁).add second v₂).encode =
      .ok ((({} : TlvValues).add first v₁).add second v₂) := by
  rw [decodeMessage, TlvValues.decode_encode]
  simp [TlvValues.Separated, TlvValues.add, TlvValues.continues, h]

/-- A computation that succeeds, step by step. -/
theorem bind_ok {α β : Type} {x : Except CryptoError α} {f : α → Except CryptoError β} {a : α}
    {b : β} (first : x = .ok a) (rest : f a = .ok b) : (x >>= f) = .ok b := by
  rw [first]
  exact rest

section Works

variable {lib : CryptoLib}

/-- Both sides derive the same key. -/
theorem CryptoLib.Works.derives (works : lib.Works) (secret : List UInt8) (salt info : String) :
    ∃ key, hkdfDerive lib secret salt info = .ok key := by
  obtain ⟨key, derived⟩ := Option.isSome_iff_exists.mp
    (works.hkdf (Utf8.encode salt) secret (Utf8.encode info))
  exact ⟨key, by rw [hkdfDerive, derived]⟩

/-- A message under a derived key opens with that key. -/
theorem CryptoLib.Works.seals (works : lib.Works) (secret : List UInt8)
    (salt info tag : String) {plain : List UInt8} (fits : plain.length ≤ maxBlockLen) :
    ∃ key sealed, hkdfDerive lib secret salt info = .ok key ∧
      encryptChacha lib key (makeNonce tag) plain = .ok sealed ∧
      decryptChacha lib key (makeNonce tag) sealed = .ok plain := by
  obtain ⟨key, derived⟩ := works.derives secret salt info
  obtain ⟨sealed, encrypted, _, decrypted⟩ := works.aead.open_seal key (makeNonce tag) [] plain fits
  refine ⟨key, sealed, derived, ?_, ?_⟩
  · rw [encryptChacha, encrypted]
  · rw [decryptChacha, decrypted]

end Works

/-- A controller: its identity, what it knows of the accessory, and the secrets of one
attempt. -/
structure Controller where
  identifier : String
  short : (Utf8.encode identifier).length ≤ 255
  seed : List UInt8
  pin : String
  /-- The key of the accessory, known since an earlier pair-setup. -/
  accessoryKey : List UInt8
  /-- Whether pair-setup is to end with M4. -/
  transient : Bool
  srpSecret : Nat
  /-- The length to which the public key of M3 is padded. -/
  keyLength : Nat
  ephemeralSecret : List UInt8

namespace Controller

variable (lib : CryptoLib) (c : Controller)

def publicKey : List UInt8 := lib.ed25519.publicKey c.seed

def ephemeralKey : List UInt8 := lib.x25519.publicKey c.ephemeralSecret

/-- Pair-setup starts with the method, and with the flag of a transient session. -/
def setupM1 : List UInt8 :=
  let tlv := (({} : TlvValues).add TlvType.state.tag [1]).add TlvType.method.tag
    [pairingMethodPairSetup]
  if c.transient then (tlv.add TlvType.flags.tag [pairingFlagsTransient]).encode else tlv.encode

/-- The controller's identity, signed and encrypted under the session key. -/
def setupM5 (sessionKey : List UInt8) : Except CryptoError (List UInt8) := do
  let deviceX ← hkdfDerive lib sessionKey "Pair-Setup-Controller-Sign-Salt"
    "Pair-Setup-Controller-Sign-Info"
  let signature := lib.ed25519.sign c.seed
    (deviceX ++ Utf8.encode c.identifier ++ c.publicKey lib)
  let inner := ((({} : TlvValues).add TlvType.identifier.tag (Utf8.encode c.identifier)).add
    TlvType.signature.tag signature).add TlvType.publicKey.tag (c.publicKey lib)
  let derivedKey ← hkdfDerive lib sessionKey psEncryptSalt psEncryptInfo
  let encrypted ← encryptChacha lib derivedKey (makeNonce "PS-Msg05") inner.encode
  .ok ((({} : TlvValues).add TlvType.state.tag [5]).add TlvType.encryptedData.tag encrypted).encode

/-- The identity of the accessory in M6, if its signature is valid. -/
def receiveM6 (sessionKey m6 : List UInt8) : Except CryptoError (List UInt8 × List UInt8) := do
  let tlv ← decodeMessage m6
  let encrypted ← tlv.require .encryptedData "M6: missing encrypted data"
  let derivedKey ← hkdfDerive lib sessionKey psEncryptSalt psEncryptInfo
  let plain ← decryptChacha lib derivedKey (makeNonce "PS-Msg06") encrypted
  let inner ← decodeMessage plain
  let identifier ← inner.require .identifier "M6: missing identifier"
  let signature ← inner.require .signature "M6: missing signature"
  let key ← inner.require .publicKey "M6: missing public key"
  let deviceX ← hkdfDerive lib sessionKey "Pair-Setup-Accessory-Sign-Salt"
    "Pair-Setup-Accessory-Sign-Info"
  if lib.ed25519.verify key (deviceX ++ identifier ++ key) signature then .ok (identifier, key)
  else .error .pairingVerify

/-- Pair-verify starts with the ephemeral key. -/
def verifyM1 : List UInt8 :=
  ((({} : TlvValues).add TlvType.state.tag [1]).add TlvType.publicKey.tag
    (c.ephemeralKey lib)).encode

/-- The shared secret and the ephemeral key of the accessory, if M2 is signed with the key that
is known for it. -/
def receiveVerifyM2 (m2 : List UInt8) : Except CryptoError (List UInt8 × List UInt8) := do
  let tlv ← decodeMessage m2
  let accessoryEphemeral ← tlv.require .publicKey "Verify M2: missing public key"
  let encrypted ← tlv.require .encryptedData "Verify M2: missing encrypted data"
  let secret := lib.x25519.diffieHellman c.ephemeralSecret accessoryEphemeral
  let derivedKey ← hkdfDerive lib secret pvEncryptSalt pvEncryptInfo
  let plain ← decryptChacha lib derivedKey (makeNonce "PV-Msg02") encrypted
  let inner ← decodeMessage plain
  let identifier ← inner.require .identifier "Verify M2: missing identifier"
  let signature ← inner.require .signature "Verify M2: missing signature"
  if lib.ed25519.verify c.accessoryKey (accessoryEphemeral ++ identifier ++ c.ephemeralKey lib)
      signature then .ok (secret, accessoryEphemeral)
  else .error .pairingVerify

/-- The controller's signature over both ephemeral keys. -/
def verifyM3 (secret accessoryEphemeral : List UInt8) : Except CryptoError (List UInt8) := do
  let signature := lib.ed25519.sign c.seed
    (c.ephemeralKey lib ++ Utf8.encode c.identifier ++ accessoryEphemeral)
  let inner := (({} : TlvValues).add TlvType.identifier.tag (Utf8.encode c.identifier)).add
    TlvType.signature.tag signature
  let derivedKey ← hkdfDerive lib secret pvEncryptSalt pvEncryptInfo
  let encrypted ← encryptChacha lib derivedKey (makeNonce "PV-Msg03") inner.encode
  .ok ((({} : TlvValues).add TlvType.state.tag [3]).add TlvType.encryptedData.tag encrypted).encode

/-- The M4 that ends pair-verify. -/
def expectedVerifyM4 : List UInt8 := (({} : TlvValues).add TlvType.state.tag [4]).encode

end Controller

section Setup

variable {lib : CryptoLib} {c : Controller}

/-- A fresh server takes the controller's M1; a transient one only without a PIN. -/
theorem processM1_setupM1 (pin : Option String) (salt secret : List UInt8)
    (allowed : c.transient = true → pin = none) :
    (SrpServer.new lib.sha512 pin salt secret).processM1 c.setupM1 =
      ({ SrpServer.new lib.sha512 pin salt secret with isTransient := c.transient }, .ok ()) := by
  cases transient : c.transient with
  | false =>
    simp only [Controller.setupM1, transient, Bool.false_eq_true, if_false, SrpServer.processM1]
    rw [decodeMessage_two _ _ (by decide)]
    rfl
  | true =>
    simp only [Controller.setupM1, transient, if_true, SrpServer.processM1]
    rw [decodeMessage_three _ _ _ (by decide) (by decide), allowed transient]
    rfl

/-- The identity message of either side fits in one block. -/
theorem identity_fits {identifier signature key : List UInt8} (short : identifier.length ≤ 255)
    (signed : signature.length = 64) (keyed : key.length = 32) :
    (((({} : TlvValues).add TlvType.identifier.tag identifier).add TlvType.signature.tag
      signature).add TlvType.publicKey.tag key).encode.length ≤ maxBlockLen := by
  refine TlvValues.encode_fits ?_ (Nat.le_refl 3)
  simp [TlvValues.add, short, signed, keyed]

/-- The server reads the controller's identity from its M5. -/
theorem setupVerifyClientIdentity_setupM5 (works : lib.Works) (sessionKey : List UInt8) :
    ∃ m5 encrypted, c.setupM5 lib sessionKey = .ok m5 ∧
      m5 = ((({} : TlvValues).add TlvType.state.tag [5]).add TlvType.encryptedData.tag
        encrypted).encode ∧
      setupVerifyClientIdentity lib sessionKey m5 = .ok (c.identifier, c.publicKey lib) := by
  obtain ⟨deviceX, signing⟩ := works.derives sessionKey "Pair-Setup-Controller-Sign-Salt"
    "Pair-Setup-Controller-Sign-Info"
  let signature := lib.ed25519.sign c.seed
    (deviceX ++ Utf8.encode c.identifier ++ c.publicKey lib)
  let inner := ((({} : TlvValues).add TlvType.identifier.tag (Utf8.encode c.identifier)).add
    TlvType.signature.tag signature).add TlvType.publicKey.tag (c.publicKey lib)
  have inside : decodeMessage inner.encode = .ok inner :=
    decodeMessage_three _ _ _ (by decide) (by decide)
  have long : (c.publicKey lib).length = 32 := works.length_publicKey _
  have signed : signature.length = 64 := works.length_sign _ _
  obtain ⟨key, encrypted, derived, sealed, opened⟩ := works.seals sessionKey psEncryptSalt
    psEncryptInfo "PS-Msg05" (identity_fits c.short signed long)
  have accepted : verifyControllerIdentity lib sessionKey (Utf8.encode c.identifier) signature
      (c.publicKey lib) = .ok (c.publicKey lib) := by
    have valid : lib.ed25519.verify (c.publicKey lib)
        (deviceX ++ Utf8.encode c.identifier ++ c.publicKey lib) signature = true :=
      works.verify_sign _ _
    have decodes : lib.ed25519.validKey (c.publicKey lib) = true := works.validKey _
    refine bind_ok signing ?_
    rw [if_neg (by omega), decodes, if_neg (by decide), if_neg (by omega), valid,
      if_neg (by decide)]
  let m5 := (({} : TlvValues).add TlvType.state.tag [5]).add TlvType.encryptedData.tag encrypted
  have plain : decryptSetupM5 lib sessionKey m5.encode = .ok inner :=
    bind_ok (decodeMessage_two _ _ (by decide)) (bind_ok rfl (bind_ok derived
      (bind_ok opened inside)))
  have named : Utf8.fromUtf8 (Utf8.encode c.identifier) = some c.identifier :=
    Utf8.fromUtf8_eq_some_iff.mpr rfl
  refine ⟨m5.encode, encrypted, bind_ok signing (bind_ok derived (bind_ok sealed rfl)), rfl, ?_⟩
  refine bind_ok plain (bind_ok rfl (bind_ok rfl (bind_ok rfl (bind_ok accepted ?_))))
  rw [named]

/-- The controller reads the accessory's identity from M6. -/
theorem receiveM6_setupBuildAccessoryIdentity (works : lib.Works) (sessionKey : List UInt8)
    {deviceId : String} (short : (Utf8.encode deviceId).length ≤ 255) (identitySeed : List UInt8) :
    ∃ m6, setupBuildAccessoryIdentity lib sessionKey deviceId identitySeed = .ok m6 ∧
      Controller.receiveM6 lib sessionKey m6 =
        .ok (Utf8.encode deviceId, lib.ed25519.publicKey identitySeed) := by
  obtain ⟨deviceX, signing⟩ := works.derives sessionKey "Pair-Setup-Accessory-Sign-Salt"
    "Pair-Setup-Accessory-Sign-Info"
  let key := lib.ed25519.publicKey identitySeed
  let signature := lib.ed25519.sign identitySeed (deviceX ++ Utf8.encode deviceId ++ key)
  let inner := ((({} : TlvValues).add TlvType.identifier.tag (Utf8.encode deviceId)).add
    TlvType.signature.tag signature).add TlvType.publicKey.tag key
  have inside : decodeMessage inner.encode = .ok inner :=
    decodeMessage_three _ _ _ (by decide) (by decide)
  have valid : lib.ed25519.verify key (deviceX ++ Utf8.encode deviceId ++ key) signature = true :=
    works.verify_sign _ _
  obtain ⟨derivedKey, encrypted, derived, sealed, opened⟩ :=
    works.seals sessionKey psEncryptSalt psEncryptInfo "PS-Msg06"
      (identity_fits short (works.length_sign _ _) (works.length_publicKey _))
  refine ⟨_, bind_ok signing (bind_ok derived (bind_ok sealed rfl)), ?_⟩
  refine bind_ok (decodeMessage_two _ _ (by decide)) (bind_ok rfl (bind_ok derived
    (bind_ok opened (bind_ok inside ?_))))
  exact bind_ok rfl (bind_ok rfl (bind_ok rfl (bind_ok signing (if_pos valid))))

end Setup

section Verify

variable {lib : CryptoLib} {c : Controller}

/-- The signed part of M2 and M3 fits in one block. -/
theorem signature_fits {identifier signature : List UInt8} (short : identifier.length ≤ 255)
    (signed : signature.length = 64) :
    ((({} : TlvValues).add TlvType.identifier.tag identifier).add TlvType.signature.tag
      signature).encode.length ≤ maxBlockLen := by
  refine TlvValues.encode_fits ?_ (Nat.le_succ 2)
  simp [TlvValues.add, short, signed]

/-- The session that the controller's M1 starts. -/
def PairVerifyServer.startedBy (lib : CryptoLib) (c : Controller) (deviceId : String)
    (identitySeed secret : List UInt8) : PairVerifyServer :=
  { PairVerifyServer.new lib deviceId identitySeed secret with
    clientEphPk := c.ephemeralKey lib
    ecdhSharedSecret := lib.x25519.diffieHellman secret (c.ephemeralKey lib)
    m1Processed := true }

/-- The server answers the controller's M1, and the controller finds the accessory's signature
and the same secret in the answer. -/
theorem receiveVerifyM2_processM1BuildM2 (works : lib.Works) {deviceId : String}
    (short : (Utf8.encode deviceId).length ≤ 255) {identitySeed : List UInt8}
    (secret : List UInt8) (trusted : c.accessoryKey = lib.ed25519.publicKey identitySeed) :
    ∃ m2, (PairVerifyServer.new lib deviceId identitySeed secret).processM1BuildM2 lib
        (c.verifyM1 lib) =
          (PairVerifyServer.startedBy lib c deviceId identitySeed secret, .ok m2) ∧
      c.receiveVerifyM2 lib m2 =
        .ok (lib.x25519.diffieHellman secret (c.ephemeralKey lib),
          lib.x25519.publicKey secret) := by
  let ours := lib.x25519.publicKey secret
  let shared := lib.x25519.diffieHellman secret (c.ephemeralKey lib)
  have same : lib.x25519.diffieHellman c.ephemeralSecret ours = shared := works.agree _ _
  let signature := lib.ed25519.sign identitySeed
    (ours ++ Utf8.encode deviceId ++ c.ephemeralKey lib)
  let inner := (({} : TlvValues).add TlvType.identifier.tag (Utf8.encode deviceId)).add
    TlvType.signature.tag signature
  have inside : decodeMessage inner.encode = .ok inner := decodeMessage_two _ _ (by decide)
  have signed : signature.length = 64 := works.length_sign _ _
  have valid : lib.ed25519.verify c.accessoryKey
      (ours ++ Utf8.encode deviceId ++ c.ephemeralKey lib) signature = true := by
    rw [trusted]
    exact works.verify_sign _ _
  have long : (c.ephemeralKey lib).length = 32 := works.length_ephemeral _
  have parsed : PairVerifyServer.parseM1 (c.verifyM1 lib) = .ok (c.ephemeralKey lib) := by
    refine bind_ok (decodeMessage_two _ _ (by decide)) (bind_ok rfl ?_)
    rw [if_neg (by decide)]
    exact bind_ok rfl (if_neg (not_not_intro long))
  obtain ⟨derivedKey, encrypted, derived, sealed, opened⟩ := works.seals shared pvEncryptSalt
    pvEncryptInfo "PV-Msg02" (signature_fits short signed)
  let m2 := ((({} : TlvValues).add TlvType.state.tag [2]).add TlvType.publicKey.tag ours).add
    TlvType.encryptedData.tag encrypted
  have built : (PairVerifyServer.startedBy lib c deviceId identitySeed secret).buildM2 lib =
      .ok m2.encode := bind_ok derived (bind_ok sealed rfl)
  refine ⟨m2.encode, ?_, ?_⟩
  · rw [PairVerifyServer.processM1BuildM2, parsed, ← built]
    rfl
  · refine bind_ok (decodeMessage_three _ _ _ (by decide) (by decide)) ?_
    refine bind_ok rfl (bind_ok rfl ?_)
    change (hkdfDerive lib (lib.x25519.diffieHellman c.ephemeralSecret ours) pvEncryptSalt
      pvEncryptInfo >>= _) = _
    rw [same]
    exact bind_ok derived (bind_ok opened (bind_ok inside (bind_ok rfl (bind_ok rfl
      (if_pos valid)))))

/-- The server takes the controller's M3 if it knows the key of the controller. -/
theorem checkM3_verifyM3 (works : lib.Works) (deviceId : String)
    (identitySeed secret : List UInt8) {lookup : String → Option (List UInt8)}
    (stored : lookup c.identifier = some (c.publicKey lib)) :
    ∃ m3 encrypted, c.verifyM3 lib (lib.x25519.diffieHellman secret (c.ephemeralKey lib))
        (lib.x25519.publicKey secret) = .ok m3 ∧
      m3 = ((({} : TlvValues).add TlvType.state.tag [3]).add TlvType.encryptedData.tag
        encrypted).encode ∧
      (PairVerifyServer.startedBy lib c deviceId identitySeed secret).checkM3 lib m3
        (some lookup) = .ok () := by
  let ours := lib.x25519.publicKey secret
  let signature := lib.ed25519.sign c.seed
    (c.ephemeralKey lib ++ Utf8.encode c.identifier ++ ours)
  let inner := (({} : TlvValues).add TlvType.identifier.tag (Utf8.encode c.identifier)).add
    TlvType.signature.tag signature
  have inside : decodeMessage inner.encode = .ok inner := decodeMessage_two _ _ (by decide)
  have signed : signature.length = 64 := works.length_sign _ _
  obtain ⟨derivedKey, encrypted, derived, sealed, opened⟩ := works.seals
    (lib.x25519.diffieHellman secret (c.ephemeralKey lib)) pvEncryptSalt pvEncryptInfo "PV-Msg03"
    (signature_fits c.short signed)
  have named : Utf8.fromUtf8 (Utf8.encode c.identifier) = some c.identifier :=
    Utf8.fromUtf8_eq_some_iff.mpr rfl
  have valid : lib.ed25519.verify (c.publicKey lib)
      (c.ephemeralKey lib ++ Utf8.encode c.identifier ++ ours) signature = true :=
    works.verify_sign _ _
  have decodes : lib.ed25519.validKey (c.publicKey lib) = true := works.validKey _
  have known : (PairVerifyServer.startedBy lib c deviceId identitySeed secret).verifyStoredKey lib
      lookup (Utf8.encode c.identifier) signature = .ok () := by
    rw [PairVerifyServer.verifyStoredKey, named]
    dsimp only
    rw [stored]
    dsimp only
    rw [decodes, if_neg (by decide), if_neg (by omega)]
    change (if (!lib.ed25519.verify (c.publicKey lib)
      (c.ephemeralKey lib ++ Utf8.encode c.identifier ++ ours) signature) = true then _ else _) = _
    rw [valid, if_neg (by decide)]
  refine ⟨_, encrypted, bind_ok derived (bind_ok sealed rfl), rfl, ?_⟩
  refine bind_ok (decodeMessage_two _ _ (by decide)) (bind_ok rfl ?_)
  rw [if_neg (by decide)]
  exact bind_ok rfl (bind_ok derived (bind_ok opened (bind_ok inside (bind_ok rfl
    (bind_ok rfl known)))))

end Verify

end Shairplay.Crypto
