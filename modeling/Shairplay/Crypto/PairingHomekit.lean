import Shairplay.Crypto.Primitives
import Shairplay.Crypto.Tlv
import Shairplay.Lib.Bytes
import Shairplay.Lib.Utf8

/-!
# HomeKit pairing

Pair-setup proves knowledge of a PIN by SRP-6a over a 3072-bit group and then exchanges
long-term identities; pair-verify authenticates a later connection by the stored
identity. Both are message handlers over state objects, and messages may arrive in any
order and number.

Random values (the salt, the server's exponent and its ephemeral secret) are arguments
of the functions that draw them.
-/

namespace Shairplay.Crypto

open Lib Bytes

def username : String := "Pair-Setup"
def transientPin : String := "3939"
def pairingMethodPairSetup : UInt8 := 0x00
def pairingFlagsTransient : UInt8 := 0x10
def tlvErrorAuthentication : UInt8 := 0x02

def psEncryptSalt : String := "Pair-Setup-Encrypt-Salt"
def psEncryptInfo : String := "Pair-Setup-Encrypt-Info"
def pvEncryptSalt : String := "Pair-Verify-Encrypt-Salt"
def pvEncryptInfo : String := "Pair-Verify-Encrypt-Info"

/-- The modulus of the RFC 5054 3072-bit group. -/
def n3072 : Nat :=
  0xFFFFFFFFFFFFFFFFC90FDAA22168C234C4C6628B80DC1CD129024E088A67CC74020BBEA63B139B22514A08798E3404DDEF9519B3CD3A431B302B0A6DF25F14374FE1356D6D51C245E485B576625E7EC6F44C42E9A637ED6B0BFF5CB6F406B7EDEE386BFB5A899FA5AE9F24117C4B1FE649286651ECE45B3DC2007CB8A163BF0598DA48361C55D39A69163FA8FD24CF5F83655D23DCA3AD961C62F356208552BB9ED529077096966D670C354E4ABC9804F1746C08CA18217C32905E462E36CE3BE39E772C180E86039B2783A2EC07A28FB5C55DF06F4C52C9DE2BCBF6955817183995497CEA956AE515D2261898FA051015728E5A8AAAC42DAD33170D04507A33A85521ABDF1CBA64ECFB850458DBEF0A8AEA71575D060C7DB3970F85A6E1E4C7ABF5AE8CDB0933D71E8C94E04A25619DCEE3D2261AD2EE6BF12FFA06D98A0864D87602733EC86A64521F2B18177B200CBBE117577A615D6C770988C0BAD946E208E24FA074E5AB3143DB5BFCE0FD108E4B82D120A93AD2CAFFFFFFFFFFFFFFFF

/-- Its generator. -/
def g3072 : Nat := 5

/-- Its size in bytes. -/
def n3072Len : Nat := 384

/-- `BigUint::modpow`. -/
def modpow (base exponent modulus : Nat) : Nat := base ^ exponent % modulus

/-- `to_bytes_be_padded`; longer numbers are not cut. -/
def toBytesBePadded (n length : Nat) : List UInt8 := padLeft length (beBytes n)

section Srp

variable (sha512 : Hash512)

/-- The number of the hash of two padded numbers. -/
def hNNPad (n1 n2 paddedLen : Nat) : Nat :=
  beNat (sha512.hash (toBytesBePadded n1 paddedLen ++ toBytesBePadded n2 paddedLen))

/-- The private key of a password: the hash of the salt and the hash of the credentials. -/
def calculateX (salt : Nat) (user : String) (password : List UInt8) : Nat :=
  beNat (sha512.hash
    (beBytes salt ++ sha512.hash (Utf8.encode user ++ Utf8.encode ":" ++ password)))

/-- The client's proof. -/
def calculateM (user : String) (salt bigA bigB : Nat) (sessionKey : List UInt8) : List UInt8 :=
  let hXor := List.zipWith (· ^^^ ·) (sha512.hash (beBytes n3072)) (sha512.hash (beBytes g3072))
  sha512.hash (hXor ++ sha512.hash (Utf8.encode user) ++ beBytes salt ++ beBytes bigA ++
    beBytes bigB ++ sessionKey)

/-- The server's proof. -/
def calculateHAmk (bigA : Nat) (m sessionKey : List UInt8) : List UInt8 :=
  sha512.hash (beBytes bigA ++ m ++ sessionKey)

end Srp

/-- State of the SRP server. The group is the same for all of them. -/
structure SrpServer where
  salt : List UInt8
  v : Nat
  b : Nat
  bigB : Nat
  sessionKey : List UInt8
  m2 : List UInt8
  isTransient : Bool
  allowTransient : Bool
  verified : Bool
  deriving DecidableEq

def handshakeError {α : Type} (message : String) : Except CryptoError α :=
  .error (.pairingHandshake message)

/-- Parse a message; a malformed one is a handshake error. -/
def decodeMessage (data : List UInt8) : Except CryptoError TlvValues :=
  match TlvValues.decode data with
  | .ok tlv => .ok tlv
  | .error e => handshakeError e.toText

def TlvValues.require (tlv : TlvValues) (type : TlvType) (message : String) :
    Except CryptoError (List UInt8) :=
  match tlv.getType type with
  | some value => .ok value
  | none => handshakeError message

namespace SrpServer

variable (sha512 : Hash512)

/-- A server for a PIN. Without a PIN the fixed transient one is used, and transient
pairing is allowed. -/
def new (pin : Option String) (saltBytes bBytes : List UInt8) : SrpServer :=
  let salt := beNat saltBytes
  let x := calculateX sha512 salt username (Utf8.encode (pin.getD transientPin))
  let v := modpow g3072 x n3072
  let k := hNNPad sha512 n3072 g3072 n3072Len
  let b := beNat bBytes
  let kv := k * v % n3072
  let gb := modpow g3072 b n3072
  { salt := saltBytes, v, b, bigB := (kv + gb) % n3072, sessionKey := [], m2 := []
    isTransient := false, allowTransient := pin.isNone, verified := false }

/-- Process M1. The transient flag is taken over before it is checked. -/
def processM1 (s : SrpServer) (data : List UInt8) : SrpServer × Except CryptoError Unit :=
  match decodeMessage data with
  | .error e => (s, .error e)
  | .ok tlv =>
    match tlv.require .method "Missing Method" with
    | .error e => (s, .error e)
    | .ok method =>
      if method ≠ [pairingMethodPairSetup] then (s, handshakeError "Unexpected pairing method")
      else
        let s := { s with isTransient := tlv.getType .flags = some [pairingFlagsTransient] }
        if s.isTransient && !s.allowTransient then
          (s, handshakeError "transient pair-setup is disabled when a PIN is configured")
        else (s, .ok ())

/-- M2 carries the salt and the padded public key. -/
def buildM2 (s : SrpServer) : List UInt8 :=
  (((({} : TlvValues).add TlvType.state.tag [2]).add TlvType.salt.tag s.salt).add
    TlvType.publicKey.tag (toBytesBePadded s.bigB n3072Len)).encode

def sessionKeyFor (s : SrpServer) (bigA : Nat) : List UInt8 :=
  let u := hNNPad sha512 bigA s.bigB n3072Len
  let vu := modpow s.v u n3072
  let avu := bigA * vu % n3072
  sha512.hash (beBytes (modpow avu s.b n3072))

/-- The checks of M3 before anything is changed: the client's public key and proof. -/
def parseM3 (data : List UInt8) : Except CryptoError (Nat × List UInt8) := do
  let tlv ← decodeMessage data
  let pkBytes ← tlv.require .publicKey "Missing PublicKey"
  let proof ← tlv.require .proof "Missing Proof"
  if proof.length ≠ 64 then handshakeError "Invalid proof length"
  else if beNat pkBytes % n3072 = 0 then handshakeError "A mod N is zero"
  else .ok (beNat pkBytes, proof)

/-- Process M3. The session key is replaced before the proof is compared; a wrong proof
takes back an earlier verification. -/
def processM3 (s : SrpServer) (data : List UInt8) : SrpServer × Except CryptoError Bool :=
  match parseM3 data with
  | .error e => (s, .error e)
  | .ok (bigA, proof) =>
    let s := { s with sessionKey := s.sessionKeyFor sha512 bigA }
    let expectedM := calculateM sha512 username (beNat s.salt) bigA s.bigB s.sessionKey
    if proof ≠ expectedM then ({ s with verified := false }, .ok false)
    else
      ({ s with m2 := calculateHAmk sha512 bigA expectedM s.sessionKey, verified := true },
        .ok true)

/-- M4 carries the server's proof, or an error while nothing is verified. -/
def buildM4 (s : SrpServer) : Except CryptoError (List UInt8) :=
  let tlv := ({} : TlvValues).add TlvType.state.tag [4]
  if !s.verified then .ok (tlv.add TlvType.error.tag [tlvErrorAuthentication]).encode
  else .ok (tlv.add TlvType.proof.tag s.m2).encode

/-- The session key of a verified transient session. -/
def sharedSecret (s : SrpServer) : Option (List UInt8) :=
  if s.verified && s.isTransient then some s.sessionKey else none

end SrpServer

def makeNonce (tag : String) : List UInt8 :=
  [0, 0, 0, 0] ++ (Utf8.encode tag).take 8 ++ List.replicate (8 - (Utf8.encode tag).length) 0

section Identity

variable (lib : CryptoLib)

/-- Derive a key of 32 bytes. -/
def hkdfDerive (secret : List UInt8) (salt info : String) : Except CryptoError (List UInt8) :=
  match lib.hkdf (Utf8.encode salt) secret (Utf8.encode info) 32 with
  | some key => .ok key
  | none => handshakeError "HKDF expand failed"

def encryptChacha (key nonce plaintext : List UInt8) : Except CryptoError (List UInt8) :=
  match lib.aead.encrypt key nonce [] plaintext with
  | some ct => .ok ct
  | none => handshakeError "ChaCha20 encrypt failed"

def decryptChacha (key nonce ciphertext : List UInt8) : Except CryptoError (List UInt8) :=
  match lib.aead.decrypt key nonce [] ciphertext with
  | some plain => .ok plain
  | none => handshakeError "ChaCha20 decrypt failed"

/-- Decrypt the identity message of M5. -/
def decryptSetupM5 (sessionKey data : List UInt8) : Except CryptoError TlvValues := do
  let tlv ← decodeMessage data
  let enc ← tlv.require .encryptedData "M5: missing encrypted data"
  let derivedKey ← hkdfDerive lib sessionKey psEncryptSalt psEncryptInfo
  let decrypted ← decryptChacha lib derivedKey (makeNonce "PS-Msg05") enc
  decodeMessage decrypted

/-- Check the controller's signature over the derived key, its identifier and its key. -/
def verifyControllerIdentity (sessionKey identifier signature clientPk : List UInt8) :
    Except CryptoError (List UInt8) := do
  let deviceX ← hkdfDerive lib sessionKey "Pair-Setup-Controller-Sign-Salt"
    "Pair-Setup-Controller-Sign-Info"
  if clientPk.length ≠ 32 then handshakeError "M5: invalid public key length"
  else if !lib.ed25519.validKey clientPk then handshakeError "M5: invalid public key"
  else if signature.length ≠ 64 then handshakeError "M5: invalid signature length"
  else if !lib.ed25519.verify clientPk (deviceX ++ identifier ++ clientPk) signature then
    .error .pairingVerify
  else .ok clientPk

/-- Verify the controller's identity in M5. -/
def setupVerifyClientIdentity (sessionKey data : List UInt8) :
    Except CryptoError (String × List UInt8) := do
  let inner ← decryptSetupM5 lib sessionKey data
  let identifier ← inner.require .identifier "M5: missing identifier"
  let signature ← inner.require .signature "M5: missing signature"
  let clientPk ← inner.require .publicKey "M5: missing public key"
  let publicKey ← verifyControllerIdentity lib sessionKey identifier signature clientPk
  match Utf8.fromUtf8 identifier with
  | some identifier => .ok (identifier, publicKey)
  | none => handshakeError "M5: invalid identifier encoding"

/-- Build the accessory's identity message for M6. -/
def setupBuildAccessoryIdentity (sessionKey : List UInt8) (deviceId : String)
    (identitySeed : List UInt8) : Except CryptoError (List UInt8) := do
  let vk := lib.ed25519.publicKey identitySeed
  let deviceX ← hkdfDerive lib sessionKey "Pair-Setup-Accessory-Sign-Salt"
    "Pair-Setup-Accessory-Sign-Info"
  let signature := lib.ed25519.sign identitySeed (deviceX ++ Utf8.encode deviceId ++ vk)
  let inner := ((({} : TlvValues).add TlvType.identifier.tag (Utf8.encode deviceId)).add
    TlvType.signature.tag signature).add TlvType.publicKey.tag vk
  let derivedKey ← hkdfDerive lib sessionKey psEncryptSalt psEncryptInfo
  let encrypted ← encryptChacha lib derivedKey (makeNonce "PS-Msg06") inner.encode
  .ok ((({} : TlvValues).add TlvType.state.tag [6]).add TlvType.encryptedData.tag encrypted).encode

/-- Process M5: only in a verified session that is not transient. -/
def SrpServer.processM5 (s : SrpServer) (data : List UInt8) :
    Except CryptoError (String × List UInt8) :=
  if !s.verified then handshakeError "M5: pair-setup not verified (M3 must succeed first)"
  else if s.isTransient then handshakeError "M5: not allowed for transient pairing"
  else setupVerifyClientIdentity lib s.sessionKey data

def SrpServer.buildM6 (s : SrpServer) (deviceId : String) (identitySeed : List UInt8) :
    Except CryptoError (List UInt8) :=
  setupBuildAccessoryIdentity lib s.sessionKey deviceId identitySeed

end Identity

def pairingErrorResponse (state : UInt8) : List UInt8 :=
  ((({} : TlvValues).add TlvType.state.tag [state]).add TlvType.error.tag
    [tlvErrorAuthentication]).encode

/-- State of the pair-verify server. -/
structure PairVerifyServer where
  deviceId : String
  identitySeed : List UInt8
  serverEphSk : List UInt8
  serverEphPk : List UInt8
  clientEphPk : List UInt8
  ecdhSharedSecret : List UInt8
  m1Processed : Bool
  completed : Bool
  deriving DecidableEq

namespace PairVerifyServer

variable (lib : CryptoLib)

/-- A server with a fresh ephemeral secret. -/
def new (deviceId : String) (identitySeed ephSk : List UInt8) : PairVerifyServer :=
  { deviceId, identitySeed, serverEphSk := ephSk, serverEphPk := lib.x25519.publicKey ephSk
    clientEphPk := List.replicate 32 0, ecdhSharedSecret := List.replicate 32 0
    m1Processed := false, completed := false }

/-- The client's ephemeral key of M1. -/
def parseM1 (data : List UInt8) : Except CryptoError (List UInt8) := do
  let tlv ← decodeMessage data
  let state ← tlv.require .state "Verify M1: missing state"
  if state ≠ [1] then handshakeError "Verify M1: unexpected state"
  else
    let clientPk ← tlv.require .publicKey "Verify M1: missing public key"
    if clientPk.length ≠ 32 then handshakeError "Verify M1: invalid key length"
    else .ok clientPk

/-- M2 carries the server's ephemeral key and its encrypted identity. -/
def buildM2 (s : PairVerifyServer) : Except CryptoError (List UInt8) := do
  let info := s.serverEphPk ++ Utf8.encode s.deviceId ++ s.clientEphPk
  let signature := lib.ed25519.sign s.identitySeed info
  let inner := (({} : TlvValues).add TlvType.identifier.tag (Utf8.encode s.deviceId)).add
    TlvType.signature.tag signature
  let derivedKey ← hkdfDerive lib s.ecdhSharedSecret pvEncryptSalt pvEncryptInfo
  let encrypted ← encryptChacha lib derivedKey (makeNonce "PV-Msg02") inner.encode
  .ok (((({} : TlvValues).add TlvType.state.tag [2]).add TlvType.publicKey.tag
    s.serverEphPk).add TlvType.encryptedData.tag encrypted).encode

/-- Process M1 and answer with M2. -/
def processM1BuildM2 (s : PairVerifyServer) (data : List UInt8) :
    PairVerifyServer × Except CryptoError (List UInt8) :=
  match parseM1 data with
  | .error e => (s, .error e)
  | .ok clientPk =>
    let s := { s with
      clientEphPk := clientPk
      ecdhSharedSecret := lib.x25519.diffieHellman s.serverEphSk clientPk
      m1Processed := true }
    (s, s.buildM2 lib)

/-- `PairingKeyLookup`: resolves a client identifier to its stored key, if there is one to ask. -/
abbrev PairingKeyLookup := Option (String → Option (List UInt8))

/-- Check the signature of M3 under the key stored for the claimed identifier. -/
def verifyStoredKey (s : PairVerifyServer) (lookup : String → Option (List UInt8))
    (identifier signature : List UInt8) : Except CryptoError Unit :=
  match Utf8.fromUtf8 identifier with
  | none => handshakeError "Verify M3: invalid identifier encoding"
  | some name =>
    match lookup name with
    | none => .error .pairingVerify
    | some ltpk =>
      if !lib.ed25519.validKey ltpk then handshakeError "Verify M3: invalid stored key"
      else if signature.length ≠ 64 then handshakeError "Verify M3: invalid signature length"
      else if !lib.ed25519.verify ltpk (s.clientEphPk ++ identifier ++ s.serverEphPk)
          signature then .error .pairingVerify
      else .ok ()

/-- The checks of M3. Without a lookup the signature is not verified, and the identifier
need not be text. -/
def checkM3 (s : PairVerifyServer) (data : List UInt8) (lookup : PairingKeyLookup) :
    Except CryptoError Unit := do
  if !s.m1Processed then handshakeError "Verify M3: M1 must be processed first"
  else
    let tlv ← decodeMessage data
    let state ← tlv.require .state "Verify M3: missing state"
    if state ≠ [3] then handshakeError "Verify M3: unexpected state"
    else
      let enc ← tlv.require .encryptedData "Verify M3: missing encrypted data"
      let derivedKey ← hkdfDerive lib s.ecdhSharedSecret pvEncryptSalt pvEncryptInfo
      let decrypted ← decryptChacha lib derivedKey (makeNonce "PV-Msg03") enc
      let inner ← decodeMessage decrypted
      let identifier ← inner.require .identifier "Verify M3: missing identifier"
      let signature ← inner.require .signature "Verify M3: missing signature"
      match lookup with
      | some lookup => s.verifyStoredKey lib lookup identifier signature
      | none => .ok ()

/-- Process M3 and answer with M4. Completion stays when a later M3 fails. -/
def processM3BuildM4 (s : PairVerifyServer) (data : List UInt8) (lookup : PairingKeyLookup) :
    PairVerifyServer × Except CryptoError (List UInt8) :=
  match s.checkM3 lib data lookup with
  | .error e => (s, .error e)
  | .ok _ =>
    ({ s with completed := true }, .ok (({} : TlvValues).add TlvType.state.tag [4]).encode)

def sharedSecret (s : PairVerifyServer) : Option (List UInt8) :=
  if s.completed then some s.ecdhSharedSecret else none

end PairVerifyServer

end Shairplay.Crypto
