import Mathlib.Data.Nat.ModEq
import Mathlib.Data.Nat.GCD.Basic
import Shairplay.Crypto.PairingHomekit
import Shairplay.Crypto.Tlv.RoundTrip

/-!
# Agreement of the SRP session key

A client that knows the PIN and follows SRP-6a reaches the server's session key, so the
server accepts its proof and answers with the proof the client expects. The hash function
is arbitrary: the two sides agree on the number that is hashed.
-/

namespace Shairplay.Crypto

open Lib Bytes

/-- Removing the masking term from the server's public key leaves its power of the
generator. -/
theorem unmask {n mask : Nat} (small : mask < n) (power : Nat) :
    ((mask + power) % n + n - mask) % n = power % n := by
  have total : (mask + power) % n + n - mask + mask ≡ power + mask [MOD n] := by
    rw [Nat.sub_add_cancel (by omega), Nat.add_comm power]
    exact (Nat.add_modEq_right).trans (Nat.mod_modEq _ _)
  exact Nat.ModEq.add_right_cancel' mask total

/-- Both sides raise the generator to the same exponent. -/
theorem modpow_agree (g n a b u x : Nat) :
    modpow (modpow g a n * modpow (modpow g x n) u n % n) b n =
      modpow (modpow g b n) (a + u * x) n := by
  have power (base e : Nat) : modpow base e n ≡ base ^ e [MOD n] := Nat.mod_modEq _ _
  have verifier : modpow (modpow g x n) u n ≡ g ^ (x * u) [MOD n] := by
    rw [pow_mul]
    exact (power _ u).trans ((power g x).pow u)
  have server : (modpow g a n * modpow (modpow g x n) u n % n) ^ b ≡
      (g ^ a * g ^ (x * u)) ^ b [MOD n] :=
    ((Nat.mod_modEq _ _).trans ((power g a).mul verifier)).pow b
  have client : modpow g b n ^ (a + u * x) ≡ (g ^ b) ^ (a + u * x) [MOD n] :=
    (power g b).pow _
  have exponents : (g ^ a * g ^ (x * u)) ^ b = (g ^ b) ^ (a + u * x) := by
    rw [← pow_add, ← pow_mul, ← pow_mul, Nat.mul_comm x u, Nat.mul_comm b]
  rw [exponents] at server
  exact server.trans client.symm

/-- A power of the generator is never divisible by the modulus. -/
theorem modpow_g3072_ne_zero (a : Nat) : modpow g3072 a n3072 % n3072 ≠ 0 := by
  have coprime : Nat.Coprime n3072 (g3072 ^ a) := Nat.Coprime.pow_right a (by decide)
  rw [modpow, Nat.mod_mod]
  intro zero
  have one : n3072 = 1 := Nat.Coprime.eq_one_of_dvd coprime (Nat.dvd_of_mod_eq_zero zero)
  exact absurd one (by decide)

/-- What a client has computed when it sends M3. -/
structure SrpClient where
  bigA : Nat
  sessionKey : List UInt8
  proof : List UInt8
  deriving DecidableEq

namespace SrpClient

variable (sha512 : Hash512)

/-- The client's side of SRP-6a, with the server's byte conventions. -/
def compute (password : String) (a salt bigB : Nat) : SrpClient :=
  let bigA := modpow g3072 a n3072
  let k := hNNPad sha512 n3072 g3072 n3072Len
  let u := hNNPad sha512 bigA bigB n3072Len
  let x := calculateX sha512 salt username (Utf8.encode password)
  let kgx := k * modpow g3072 x n3072 % n3072
  -- adding the modulus keeps the difference from going below zero
  let base := (bigB + n3072 - kgx) % n3072
  let sessionKey := sha512.hash (beBytes (modpow base (a + u * x) n3072))
  { bigA, sessionKey, proof := calculateM sha512 username salt bigA bigB sessionKey }

/-- Read M2 and compute the answer. -/
def receiveM2 (password : String) (a : Nat) (m2 : List UInt8) : Except CryptoError SrpClient := do
  let tlv ← decodeMessage m2
  let salt ← tlv.require .salt "Missing Salt"
  let bigB ← tlv.require .publicKey "Missing PublicKey"
  .ok (compute sha512 password a (beNat salt) (beNat bigB))

/-- M3, with the public key padded to any length. -/
def m3 (client : SrpClient) (length : Nat) : List UInt8 :=
  (((({} : TlvValues).add TlvType.state.tag [3]).add TlvType.publicKey.tag
    (toBytesBePadded client.bigA length)).add TlvType.proof.tag client.proof).encode

/-- The M4 that the client takes as the server's proof. -/
def expectedM4 (client : SrpClient) : List UInt8 :=
  ((({} : TlvValues).add TlvType.state.tag [4]).add TlvType.proof.tag
    (calculateHAmk sha512 client.bigA client.proof client.sessionKey)).encode

end SrpClient

/-- Three entries with different tags are read back as they were written. -/
theorem decodeMessage_three {first second third : UInt8} (v₁ v₂ v₃ : List UInt8)
    (h₁₂ : first ≠ second) (h₂₃ : second ≠ third) :
    decodeMessage (((({} : TlvValues).add first v₁).add second v₂).add third v₃).encode =
      .ok ((({} : TlvValues).add first v₁).add second v₂ |>.add third v₃) := by
  rw [decodeMessage, TlvValues.decode_encode]
  simp [TlvValues.Separated, TlvValues.add, TlvValues.continues, h₁₂, h₂₃]

theorem beNat_toBytesBePadded (n length : Nat) : beNat (toBytesBePadded n length) = n := by
  rw [toBytesBePadded, beNat_padLeft, beNat_beBytes]

/-- The client learns the salt and the public key of the server from M2. -/
theorem SrpClient.receiveM2_buildM2 (sha512 : Hash512) (password : String) (a : Nat)
    (s : SrpServer) :
    receiveM2 sha512 password a s.buildM2 =
      .ok (compute sha512 password a (beNat s.salt) s.bigB) := by
  rw [receiveM2, SrpServer.buildM2, decodeMessage_three _ _ _ (by decide) (by decide)]
  change Except.ok (compute sha512 password a (beNat s.salt)
    (beNat (toBytesBePadded s.bigB n3072Len))) = _
  rw [beNat_toBytesBePadded]

/-- The server reads the client's key and proof from M3. -/
theorem SrpServer.parseM3_m3 {client : SrpClient} (length : Nat)
    (proof : client.proof.length = 64) (nonzero : client.bigA % n3072 ≠ 0) :
    parseM3 (client.m3 length) = .ok (client.bigA, client.proof) := by
  rw [parseM3, SrpClient.m3, decodeMessage_three _ _ _ (by decide) (by decide)]
  change (if client.proof.length ≠ 64 then _
    else if beNat (toBytesBePadded client.bigA length) % n3072 = 0 then _
    else Except.ok (beNat (toBytesBePadded client.bigA length), client.proof)) = _
  rw [beNat_toBytesBePadded, if_neg (not_not_intro proof), if_neg nonzero]

/-- A message of pair-setup to the SRP server. -/
inductive SrpMessage
  | m1 (data : List UInt8)
  | m3 (data : List UInt8)

namespace SrpServer

variable (sha512 : Hash512)

/-- The state after a message. -/
def receive (s : SrpServer) : SrpMessage → SrpServer
  | .m1 data => (s.processM1 data).1
  | .m3 data => (s.processM3 sha512 data).1

/-- The two servers run the same key exchange. -/
structure SameExchange (s t : SrpServer) : Prop where
  salt : s.salt = t.salt
  v : s.v = t.v
  b : s.b = t.b
  bigB : s.bigB = t.bigB

theorem sameExchange_receive (s : SrpServer) (message : SrpMessage) :
    SameExchange (s.receive sha512 message) s := by
  cases message with
  | m1 data =>
    simp only [receive, processM1]
    repeat' split
    all_goals exact ⟨rfl, rfl, rfl, rfl⟩
  | m3 data =>
    simp only [receive, processM3]
    repeat' split
    all_goals exact ⟨rfl, rfl, rfl, rfl⟩

/-- No message changes the key exchange. -/
theorem sameExchange_run (s : SrpServer) (history : List SrpMessage) :
    SameExchange (history.foldl (receive sha512) s) s := by
  induction history generalizing s with
  | nil => exact ⟨rfl, rfl, rfl, rfl⟩
  | cons message history ih =>
    have rest := ih (s.receive sha512 message)
    have first := sameExchange_receive sha512 s message
    exact ⟨rest.salt.trans first.salt, rest.v.trans first.v, rest.b.trans first.b,
      rest.bigB.trans first.bigB⟩

theorem sessionKeyFor_eq (pin : Option String) (saltBytes bBytes : List UInt8) (a : Nat)
    {s : SrpServer} (same : SameExchange s (new sha512 pin saltBytes bBytes)) :
    s.sessionKeyFor sha512 (modpow g3072 a n3072) =
      (SrpClient.compute sha512 (pin.getD transientPin) a (beNat s.salt) s.bigB).sessionKey := by
  have mask (m : Nat) : m % n3072 < n3072 := Nat.mod_lt _ (by decide)
  simp only [sessionKeyFor, SrpClient.compute, same.salt, same.v, same.b, same.bigB, new]
  rw [unmask (mask _), modpow_agree]
  simp only [modpow, Nat.mod_mod]

/-- The server accepts the client's side of the exchange and remembers its session key. -/
theorem processM3_compute (pin : Option String) (saltBytes bBytes : List UInt8) (a length : Nat)
    {s : SrpServer} (same : SameExchange s (new sha512 pin saltBytes bBytes)) {client : SrpClient}
    (computed : SrpClient.compute sha512 (pin.getD transientPin) a (beNat s.salt) s.bigB = client) :
    s.processM3 sha512 (client.m3 length) =
      ({ s with
        sessionKey := client.sessionKey
        m2 := calculateHAmk sha512 client.bigA client.proof client.sessionKey
        verified := true }, .ok true) := by
  have bigA : client.bigA = modpow g3072 a n3072 := by
    rw [← computed]
    rfl
  have key : s.sessionKeyFor sha512 client.bigA = client.sessionKey := by
    rw [bigA, ← computed]
    exact sessionKeyFor_eq sha512 pin saltBytes bBytes a same
  have proof : client.proof = calculateM sha512 username (beNat s.salt) client.bigA
      s.bigB client.sessionKey := by
    rw [← computed]
    rfl
  have parsed : parseM3 (client.m3 length) = .ok (client.bigA, client.proof) := by
    refine parseM3_m3 length ?_ ?_
    · rw [proof]
      exact sha512.length_hash _
    · rw [bigA]
      exact modpow_g3072_ne_zero a
  simp only [processM3, parsed, key, ← proof, ne_eq, not_true_eq_false, if_false]

/-- After any earlier messages, a client that knows the PIN and answers M2 is accepted,
holds the server's session key and receives the proof it expects. -/
theorem srp_agreement (pin : Option String) (saltBytes bBytes : List UInt8) (a length : Nat)
    (history : List SrpMessage) :
    let server := history.foldl (receive sha512) (new sha512 pin saltBytes bBytes)
    ∃ client : SrpClient,
      SrpClient.receiveM2 sha512 (pin.getD transientPin) a server.buildM2 = .ok client ∧
      client.bigA = modpow g3072 a n3072 ∧
      (server.processM3 sha512 (client.m3 length)).2 = .ok true ∧
      (server.processM3 sha512 (client.m3 length)).1.sessionKey = client.sessionKey ∧
      (server.processM3 sha512 (client.m3 length)).1.buildM4 = .ok (client.expectedM4 sha512) := by
  intro server
  have same : SameExchange server (new sha512 pin saltBytes bBytes) :=
    sameExchange_run sha512 _ history
  let client := SrpClient.compute sha512 (pin.getD transientPin) a (beNat server.salt) server.bigB
  have accepted := processM3_compute sha512 pin saltBytes bBytes a length same
    (show _ = client from rfl)
  refine ⟨client, SrpClient.receiveM2_buildM2 sha512 _ a server, rfl, ?_⟩
  rw [accepted]
  exact ⟨rfl, rfl, rfl⟩

end SrpServer

end Shairplay.Crypto
