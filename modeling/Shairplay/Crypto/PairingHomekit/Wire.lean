import Shairplay.Crypto.PairingHomekit.Agreement

/-!
# What the SRP proofs cover

M2 carries the salt as it was drawn and the public key padded to the size of the modulus. The
server hashes both as numbers, in their shortest form, so a leading zero that is on the wire is
not in the hash. A client that hashes what it has received is accepted when there is none.
-/

namespace Shairplay.Crypto

open Lib Bytes

section Hashes

variable (sha512 : Hash512)

/-- The private key of a password for the bytes of a salt. -/
def xOfBytes (saltBytes : List UInt8) (user : String) (password : List UInt8) : Nat :=
  beNat (sha512.hash (saltBytes ++ sha512.hash (Utf8.encode user ++ Utf8.encode ":" ++ password)))

/-- The client's proof for the bytes of a salt and of the public keys. -/
def mOfBytes (user : String) (saltBytes aBytes bBytes sessionKey : List UInt8) : List UInt8 :=
  let hXor := List.zipWith (· ^^^ ·) (sha512.hash (beBytes n3072)) (sha512.hash (beBytes g3072))
  sha512.hash (hXor ++ sha512.hash (Utf8.encode user) ++ saltBytes ++ aBytes ++ bBytes ++
    sessionKey)

end Hashes

namespace SrpServer

/-- The salt as the server hashes it, for the private key and for the proof. -/
def hashedSalt (s : SrpServer) : List UInt8 := beBytes (beNat s.salt)

def hashedPublicKey (s : SrpServer) : List UInt8 := beBytes s.bigB

theorem calculateX_eq_xOfBytes (sha512 : Hash512) (s : SrpServer) (user : String)
    (password : List UInt8) :
    calculateX sha512 (beNat s.salt) user password = xOfBytes sha512 s.hashedSalt user password :=
  rfl

theorem calculateM_eq_mOfBytes (sha512 : Hash512) (s : SrpServer) (user : String) (bigA : Nat)
    (sessionKey : List UInt8) :
    calculateM sha512 user (beNat s.salt) bigA s.bigB sessionKey =
      mOfBytes sha512 user s.hashedSalt (beBytes bigA) s.hashedPublicKey sessionKey :=
  rfl

/-- The private key and the proof are hashes of the bytes that M2 carries, whatever the hash
function. -/
def HashesWire (s : SrpServer) : Prop :=
  ∃ tlv salt publicKey, decodeMessage s.buildM2 = .ok tlv ∧ tlv.getType .salt = some salt ∧
    tlv.getType .publicKey = some publicKey ∧ ∀ sha512 : Hash512,
      (∀ user password, calculateX sha512 (beNat s.salt) user password =
        xOfBytes sha512 salt user password) ∧
      ∀ user bigA sessionKey, calculateM sha512 user (beNat s.salt) bigA s.bigB sessionKey =
        mOfBytes sha512 user salt (beBytes bigA) publicKey sessionKey

/-- Neither the salt nor the public key has a leading zero on the wire. -/
def NoLeadingZero (s : SrpServer) : Prop :=
  s.salt.head? ≠ some 0 ∧ (toBytesBePadded s.bigB n3072Len).head? ≠ some 0

theorem decodeMessage_buildM2 (s : SrpServer) :
    decodeMessage s.buildM2 = .ok (((({} : TlvValues).add TlvType.state.tag [2]).add
      TlvType.salt.tag s.salt).add TlvType.publicKey.tag (toBytesBePadded s.bigB n3072Len)) :=
  decodeMessage_three _ _ _ (by decide) (by decide)

theorem hashedSalt_eq_iff {s : SrpServer} (size : s.salt.length = 16) :
    s.hashedSalt = s.salt ↔ s.salt.head? ≠ some 0 :=
  beBytes_beNat_iff (by omega)

theorem hashedPublicKey_eq_iff (s : SrpServer) :
    s.hashedPublicKey = toBytesBePadded s.bigB n3072Len ↔
      (toBytesBePadded s.bigB n3072Len).head? ≠ some 0 := by
  have long : 2 ≤ (toBytesBePadded s.bigB n3072Len).length := by
    rw [toBytesBePadded, length_padLeft, n3072Len]
    omega
  have iff := beBytes_beNat_iff long
  rwa [beNat_toBytesBePadded] at iff

/-- A hash function that only tells lengths apart. -/
def lengthHash : Hash512 where
  hash data := List.replicate 62 0 ++ [UInt8.ofNat (data.length / 256), UInt8.ofNat data.length]
  length_hash _ := rfl

theorem lengthHash_ne {xs ys : List UInt8} (less : xs.length < ys.length)
    (small : ys.length < 65536) : lengthHash.hash xs ≠ lengthHash.hash ys := by
  intro same
  obtain ⟨_, bytes⟩ := List.append_inj same rfl
  simp only [List.cons.injEq, and_true] at bytes
  have high := congrArg UInt8.toNat bytes.1
  have low := congrArg UInt8.toNat bytes.2
  rw [UInt8.toNat_ofNat', UInt8.toNat_ofNat'] at high low
  omega

theorem bigB_new_lt (sha512 : Hash512) (pin : Option String) (saltBytes bBytes : List UInt8) :
    (new sha512 pin saltBytes bBytes).bigB < n3072 := Nat.mod_lt _ (by decide)

theorem n3072_lt : n3072 < 256 ^ 384 := by decide +kernel

theorem length_publicKey {s : SrpServer} (fits : s.bigB < n3072) :
    (toBytesBePadded s.bigB n3072Len).length = 384 := by
  have short : (beBytes s.bigB).length ≤ 384 :=
    length_beBytes_le (lt_trans fits n3072_lt) (by decide)
  rw [toBytesBePadded, length_padLeft, n3072Len]
  omega

/-- What is hashed is shorter than what is sent if there is a leading zero. -/
theorem length_hashed_lt {s : SrpServer} (size : s.salt.length = 16) (fits : s.bigB < n3072)
    (zero : ¬ s.NoLeadingZero) : s.hashedSalt.length + s.hashedPublicKey.length < 16 + 384 := by
  have sent := length_publicKey fits
  have salt := length_beBytes_beNat_le (show 0 < s.salt.length by omega)
  have key := length_beBytes_beNat_le (show 0 < (toBytesBePadded s.bigB n3072Len).length by omega)
  have saltLt := @length_beBytes_beNat_lt s.salt (by omega)
  have keyLt := @length_beBytes_beNat_lt (toBytesBePadded s.bigB n3072Len) (by omega)
  rw [beNat_toBytesBePadded] at key keyLt
  rw [hashedSalt, hashedPublicKey]
  rw [NoLeadingZero, not_and_or, not_not, not_not] at zero
  rcases zero with inSalt | inKey
  · have := saltLt inSalt
    omega
  · have := keyLt inKey
    omega

/-- This hash function shows every leading zero in the proof. -/
theorem calculateM_ne_mOfBytes {s : SrpServer} (size : s.salt.length = 16)
    (fits : s.bigB < n3072) (zero : ¬ s.NoLeadingZero) (user : String) {bigA : Nat}
    (small : (beBytes bigA).length ≤ 384) {sessionKey sessionKey' : List UInt8}
    (same : sessionKey.length = sessionKey'.length) (short : sessionKey'.length ≤ 64) :
    calculateM lengthHash user (beNat s.salt) bigA s.bigB sessionKey ≠
      mOfBytes lengthHash user s.salt (beBytes bigA) (toBytesBePadded s.bigB n3072Len)
        sessionKey' := by
  have fewer := length_hashed_lt size fits zero
  have sent := length_publicKey fits
  rw [calculateM_eq_mOfBytes]
  refine lengthHash_ne ?_ ?_
  · simp only [List.length_append, same, size, sent]
    omega
  · simp only [List.length_append, List.length_zipWith, lengthHash.length_hash, size, sent]
    omega

theorem hashesWire_iff {s : SrpServer} (size : s.salt.length = 16) (fits : s.bigB < n3072) :
    s.HashesWire ↔ s.NoLeadingZero := by
  constructor
  · rintro ⟨tlv, salt, publicKey, decoded, hasSalt, hasKey, covers⟩
    by_contra zero
    rw [decodeMessage_buildM2] at decoded
    obtain rfl := Except.ok.inj decoded
    obtain rfl := Option.some.inj hasSalt
    obtain rfl := Option.some.inj hasKey
    have small : (beBytes 0).length ≤ 384 := by decide
    exact calculateM_ne_mOfBytes size fits zero username small rfl (by decide)
      ((covers lengthHash).2 username 0 [])
  · intro lead
    have salt := (hashedSalt_eq_iff size).mpr lead.1
    have publicKey := (hashedPublicKey_eq_iff s).mpr lead.2
    refine ⟨_, s.salt, _, decodeMessage_buildM2 s, rfl, rfl, fun sha512 => ⟨?_, ?_⟩⟩
    · intro user password
      rw [calculateX_eq_xOfBytes, salt]
    · intro user bigA sessionKey
      rw [calculateM_eq_mOfBytes, salt, publicKey]

end SrpServer

namespace SrpClient

variable (sha512 : Hash512)

/-- The client's side of SRP-6a with the salt and the server's key as they came. -/
def computeVerbatim (password : String) (a : Nat) (saltBytes bBytes : List UInt8) : SrpClient :=
  let bigA := modpow g3072 a n3072
  let k := hNNPad sha512 n3072 g3072 n3072Len
  let u := beNat (sha512.hash (toBytesBePadded bigA n3072Len ++ bBytes))
  let x := xOfBytes sha512 saltBytes username (Utf8.encode password)
  let kgx := k * modpow g3072 x n3072 % n3072
  let base := (beNat bBytes + n3072 - kgx) % n3072
  let sessionKey := sha512.hash (beBytes (modpow base (a + u * x) n3072))
  { bigA, sessionKey
    proof := mOfBytes sha512 username saltBytes (beBytes bigA) bBytes sessionKey }

def receiveVerbatim (password : String) (a : Nat) (m2 : List UInt8) :
    Except CryptoError SrpClient := do
  let tlv ← decodeMessage m2
  let salt ← tlv.require .salt "Missing Salt"
  let bigB ← tlv.require .publicKey "Missing PublicKey"
  .ok (computeVerbatim sha512 password a salt bigB)

theorem receiveVerbatim_buildM2 (password : String) (a : Nat) (s : SrpServer) :
    receiveVerbatim sha512 password a s.buildM2 =
      .ok (computeVerbatim sha512 password a s.salt (toBytesBePadded s.bigB n3072Len)) := by
  rw [receiveVerbatim, SrpServer.decodeMessage_buildM2]
  rfl

/-- Where the server hashes the wire, the two ways of computing agree. -/
theorem computeVerbatim_eq (password : String) (a : Nat) {s : SrpServer}
    (salt : s.hashedSalt = s.salt)
    (publicKey : s.hashedPublicKey = toBytesBePadded s.bigB n3072Len) :
    computeVerbatim sha512 password a s.salt (toBytesBePadded s.bigB n3072Len) =
      compute sha512 password a (beNat s.salt) s.bigB := by
  simp only [compute, SrpServer.calculateX_eq_xOfBytes, SrpServer.calculateM_eq_mOfBytes, salt,
    publicKey]
  rw [computeVerbatim, beNat_toBytesBePadded]
  rfl

end SrpClient

namespace SrpServer

variable (sha512 : Hash512)

/-- The hashes cover the bytes on the wire exactly if neither the salt nor the public key has a
leading zero there. A client that hashes the received bytes and knows the PIN is then accepted,
after any earlier messages. -/
theorem hashesWire_and_accepts_iff :
    (∀ s : SrpServer, s.salt.length = 16 → s.bigB < n3072 →
      (s.HashesWire ↔ s.NoLeadingZero)) ∧
    ∀ (pin : Option String) (saltBytes bBytes : List UInt8) (history : List SrpMessage),
      saltBytes.length = 16 →
      let server := history.foldl (receive sha512) (new sha512 pin saltBytes bBytes)
      (server.HashesWire ∧ ∀ a length : Nat, ∃ client,
          SrpClient.receiveVerbatim sha512 (pin.getD transientPin) a server.buildM2 = .ok client ∧
          (server.processM3 sha512 (client.m3 length)).2 = .ok true) ↔
        server.NoLeadingZero := by
  refine ⟨fun s size fits => hashesWire_iff size fits, ?_⟩
  intro pin saltBytes bBytes history size server
  have same : SameExchange server (new sha512 pin saltBytes bBytes) :=
    sameExchange_run sha512 _ history
  have size' : server.salt.length = 16 := by
    rw [same.salt]
    exact size
  have fits : server.bigB < n3072 := by
    rw [same.bigB]
    exact bigB_new_lt ..
  constructor
  · rintro ⟨wire, _⟩
    exact (hashesWire_iff size' fits).mp wire
  · intro lead
    refine ⟨(hashesWire_iff size' fits).mpr lead, ?_⟩
    intro a length
    refine ⟨_, SrpClient.receiveVerbatim_buildM2 sha512 _ a server, ?_⟩
    rw [SrpClient.computeVerbatim_eq sha512 _ a ((hashedSalt_eq_iff size').mpr lead.1)
      ((hashedPublicKey_eq_iff server).mpr lead.2),
      processM3_compute sha512 pin saltBytes bBytes a length same rfl]

/-- With it the client that hashes the wire is rejected for every leading zero. -/
theorem rejects_of_leading_zero {s : SrpServer} (size : s.salt.length = 16)
    (fits : s.bigB < n3072) (zero : ¬ s.NoLeadingZero) (password : String) (a length : Nat) :
    ∃ client, SrpClient.receiveVerbatim lengthHash password a s.buildM2 = .ok client ∧
      (s.processM3 lengthHash (client.m3 length)).2 = .ok false := by
  refine ⟨_, SrpClient.receiveVerbatim_buildM2 lengthHash password a s, ?_⟩
  generalize made : SrpClient.computeVerbatim lengthHash password a s.salt
    (toBytesBePadded s.bigB n3072Len) = client
  have bigA : client.bigA = modpow g3072 a n3072 := by
    rw [← made]
    rfl
  have proof : client.proof = mOfBytes lengthHash username s.salt (beBytes client.bigA)
      (toBytesBePadded s.bigB n3072Len) client.sessionKey := by
    rw [← made]
    rfl
  have parsed : parseM3 (client.m3 length) = .ok (client.bigA, client.proof) := by
    refine parseM3_m3 length ?_ ?_
    · rw [proof]
      exact lengthHash.length_hash _
    · rw [bigA]
      exact modpow_g3072_ne_zero a
  have differs : client.proof ≠ calculateM lengthHash username (beNat s.salt) client.bigA
      s.bigB (s.sessionKeyFor lengthHash client.bigA) := by
    have keys : client.sessionKey.length = 64 := by
      rw [← made]
      exact lengthHash.length_hash _
    have keys' : (s.sessionKeyFor lengthHash client.bigA).length = 64 := lengthHash.length_hash _
    have small : (beBytes client.bigA).length ≤ 384 := by
      refine length_beBytes_le (lt_trans ?_ n3072_lt) (by decide)
      rw [bigA]
      exact Nat.mod_lt _ (by decide)
    rw [proof]
    exact (calculateM_ne_mOfBytes size fits zero username small (keys'.trans keys.symm)
      keys.le).symm
  simp only [processM3, parsed]
  rw [if_pos differs]

/-- Servers without a PIN. The salt with a leading zero is not covered; with a salt of ones, and a
private key for which B has all its bytes, the client is accepted. -/
theorem hashesWire_and_accepts_ones :
    ((new lengthHash none (0 :: List.replicate 15 1) [1]).HashesWire ↔
      (new lengthHash none (0 :: List.replicate 15 1) [1]).NoLeadingZero) ∧
    let server := new lengthHash none (List.replicate 16 1) [5, 42]
    server.HashesWire ∧ ∀ a length : Nat, ∃ client,
      SrpClient.receiveVerbatim lengthHash transientPin a server.buildM2 = .ok client ∧
      (server.processM3 lengthHash (client.m3 length)).2 = .ok true :=
  ⟨(hashesWire_and_accepts_iff lengthHash).1 _ rfl (bigB_new_lt ..),
    ((hashesWire_and_accepts_iff lengthHash).2 none (List.replicate 16 1) [5, 42] [] rfl).mpr
      ⟨by decide, by decide +kernel⟩⟩

/-- With a leading zero the server hashes other bytes than it sends, and rejects the client that
hashes what it was sent. -/
theorem leading_zero_rejected :
    ¬ (new lengthHash none (0 :: List.replicate 15 1) [1]).HashesWire ∧
      ∃ client, SrpClient.receiveVerbatim lengthHash transientPin 1
          (new lengthHash none (0 :: List.replicate 15 1) [1]).buildM2 = .ok client ∧
        ((new lengthHash none (0 :: List.replicate 15 1) [1]).processM3 lengthHash
          (client.m3 384)).2 = .ok false := by
  have zero : ¬ (new lengthHash none (0 :: List.replicate 15 1) [1]).NoLeadingZero :=
    fun lead => lead.1 rfl
  constructor
  · intro wire
    exact zero ((hashesWire_iff rfl (bigB_new_lt ..)).mp wire)
  · exact rejects_of_leading_zero rfl (bigB_new_lt ..) zero transientPin 1 384

end SrpServer

end Shairplay.Crypto
