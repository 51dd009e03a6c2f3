import Shairplay.Crypto.Aes
import Shairplay.Crypto.PairingHomekit.Controller
import Shairplay.Raop.Connection.Channel
import Shairplay.Raop.Handlers.PairVerify

/-!
# An honest client of the first protocol version

Both sides encrypt their signatures with one keystream: the server uses its first 64 bytes, the
client those behind. A client that knows the server's key finds its signature in the reply to
M1, and the server finds the client's in the second message.
-/

namespace Shairplay.Raop

open Lib Keystream Proto Crypto

/-- The counter mode of the platform is the one written by hand, over a block cipher. -/
def Platform.CounterMode (env : Platform) (cipher : List UInt8 → Block → Block) : Prop :=
  ∀ key iv data, key.length = 16 → (size : iv.length = 16) →
    env.aesCtr key iv data = ((AesCtr.new (cipher key) ⟨iv, size⟩).encrypt data).2

/-- A client: its keys and the key of the server, which pair-setup returned. -/
structure LegacyClient where
  seed : List UInt8
  ecdhSecret : List UInt8
  serverKey : List UInt8

namespace LegacyClient

variable (env : Platform) (client : LegacyClient)

def ecdhKey : List UInt8 := env.crypto.x25519.publicKey client.ecdhSecret

def m1 : List UInt8 :=
  [1, 0, 0, 0] ++ client.ecdhKey env ++ env.crypto.ed25519.publicKey client.seed

/-- The cipher of a shared secret, from the start of the keystream. -/
def aes (secret data : List UInt8) : List UInt8 :=
  env.aesCtr ((env.crypto.sha512.hash (Utf8.encode "Pair-Verify-AES-Key" ++ secret)).take 16)
    ((env.crypto.sha512.hash (Utf8.encode "Pair-Verify-AES-IV" ++ secret)).take 16) data

/-- The shared secret and the second message, if the reply is signed by the server. -/
def receive (reply : List UInt8) : Option (List UInt8 × List UInt8) :=
  let theirs := reply.take 32
  let secret := env.crypto.x25519.diffieHellman client.ecdhSecret theirs
  if env.crypto.ed25519.verify client.serverKey (theirs ++ client.ecdhKey env)
      (aes env secret (reply.drop 32)) then
    let signature := env.crypto.ed25519.sign client.seed (client.ecdhKey env ++ theirs)
    some (secret, [0, 0, 0, 0] ++ (aes env secret (List.replicate 64 0 ++ signature)).drop 64)
  else none

end LegacyClient

section

variable {env : Platform} {cipher : List UInt8 → Block → Block}

theorem aes_eq_xorFrom (counter : env.CounterMode cipher) (secret : List UInt8) :
    ∃ ks, ∀ data, LegacyClient.aes env secret data = xorFrom ks 0 data := by
  have size (salt : String) :
      ((env.crypto.sha512.hash (Utf8.encode salt ++ secret)).take 16).length = 16 := by
    rw [List.length_take, env.crypto.sha512.length_hash]
    rfl
  exact ⟨_, fun data => (counter _ _ data (size _) (size _)).trans
    ((AesCtr.at_new _ _).encrypt data).1⟩

/-- What is encrypted behind some bytes of the keystream is decrypted there. -/
theorem drop_xorFrom_twice (ks : Nat → UInt8) (front back : List UInt8) :
    (xorFrom ks 0 (front ++ (xorFrom ks 0 (front ++ back)).drop front.length)).drop front.length =
      back := by
  have behind (text : List UInt8) :
      (xorFrom ks 0 (front ++ text)).drop front.length = xorFrom ks (0 + front.length) text := by
    rw [xorFrom_append, List.drop_append_of_le_length (by simp), List.drop_eq_nil_of_le (by simp),
      List.nil_append]
  rw [behind, behind, xorFrom_xorFrom]

variable {config : RaopConfig} {client : LegacyClient} {w : World} {request : Request}
variable {response : HttpResponse}

/-- The session after the client's M1. -/
def PairingSession.startedBy (env : Platform) (client : LegacyClient) (ephemeral : List UInt8) :
    PairingSession where
  status := .handshake
  edTheirs := env.crypto.ed25519.publicKey client.seed
  ecdhOurs := env.crypto.x25519.publicKey ephemeral
  ecdhTheirs := client.ecdhKey env
  ecdhSecret := env.crypto.x25519.diffieHellman ephemeral (client.ecdhKey env)

/-- A fresh session starts its handshake with the client's M1. -/
theorem handlePairVerifyAp1_m1 (works : env.crypto.Works)
    (fresh : w.conn.pairing.status = .initial) (m1 : request.body = some (client.m1 env)) :
    let started := PairingSession.startedBy env client w.ambient.ephemeralSecret
    handlePairVerifyAp1 env config w request response =
      { world := w.mapConn fun conn => { conn with pairing := started }
        response := octetStream response
        body := some (started.ecdhOurs ++ LegacyClient.aes env started.ecdhSecret
          (env.crypto.ed25519.sign config.pairingSeed
            (started.ecdhOurs ++ started.ecdhTheirs))) } := by
  intro started
  have ecdh : (client.ecdhKey env).length = 32 := works.length_ephemeral _
  have ed : (env.crypto.ed25519.publicKey client.seed).length = 32 := works.length_publicKey _
  have long : (client.m1 env).length = 68 := by
    simp only [LegacyClient.m1, List.length_append, ecdh, ed]
    rfl
  have front : ((client.m1 env).drop 4).take 32 = client.ecdhKey env := by
    rw [LegacyClient.m1, List.append_assoc]
    exact List.take_left' ecdh
  have back : ((client.m1 env).drop 36).take 32 = env.crypto.ed25519.publicKey client.seed := by
    rw [LegacyClient.m1, List.drop_left' (by simp [ecdh]), List.take_of_length_le (by omega)]
  have first : (client.m1 env).head? = some 1 := rfl
  have handshake : w.conn.pairing.handshake env w.ambient.ephemeralSecret (client.ecdhKey env)
      (env.crypto.ed25519.publicKey client.seed) = started := by
    rw [PairingSession.handshake, if_neg (not_not_intro fresh)]
    rfl
  simp only [handlePairVerifyAp1, m1, first, pairVerifyAp1Start, long, front, back, handshake]
  rfl

/-- The session finishes with the client's signature behind 64 bytes of the keystream. -/
theorem finish_startedBy (works : env.crypto.Works) (counter : env.CounterMode cipher)
    (client : LegacyClient) (ephemeral : List UInt8) :
    let started := PairingSession.startedBy env client ephemeral
    let signature := env.crypto.ed25519.sign client.seed (started.ecdhTheirs ++ started.ecdhOurs)
    let encrypted :=
      (LegacyClient.aes env started.ecdhSecret (List.replicate 64 0 ++ signature)).drop 64
    encrypted.length = 64 ∧
      started.finish env encrypted = ({ started with status := .finished }, .ok ()) := by
  intro started signature encrypted
  obtain ⟨ks, adds⟩ := aes_eq_xorFrom counter started.ecdhSecret
  have signed : signature.length = 64 := works.length_sign _ _
  have size : encrypted.length = 64 := by
    simp only [encrypted, adds, List.length_drop, length_xorFrom, List.length_append,
      List.length_replicate, signed]
  have decrypted : (started.aes env (List.replicate 64 0 ++ encrypted)).drop 64 = signature := by
    have twice := drop_xorFrom_twice ks (List.replicate 64 0) signature
    rw [List.length_replicate, ← adds, ← adds] at twice
    exact twice
  have valid : env.crypto.ed25519.verify started.edTheirs (started.ecdhTheirs ++ started.ecdhOurs)
      signature = true := works.verify_sign _ _
  have decodes : env.crypto.ed25519.validKey started.edTheirs = true := works.validKey _
  have under : started.status = .handshake := rfl
  refine ⟨size, ?_⟩
  rw [PairingSession.finish, if_neg (not_not_intro under)]
  simp only [decrypted, decodes, valid]
  rfl

/-- Pair-verify of an honest client: on a fresh session the reply to M1 carries the server's
signature, and whatever happens to the connection in between, as long as its session stays as it
is, the second message finishes the session with the same secret on both sides. -/
theorem legacyVerify_completes (works : env.crypto.Works) (counter : env.CounterMode cipher)
    (trusted : client.serverKey = env.crypto.ed25519.publicKey config.pairingSeed)
    (fresh : w.conn.pairing.status = .initial) (m1 : request.body = some (client.m1 env)) :
    ∃ reply secret message,
      (handlePairVerifyAp1 env config w request response).body = some reply ∧
      client.receive env reply = some (secret, message) ∧
      ∀ (w' : World) (second : Request) (answer : HttpResponse),
        w'.conn.pairing =
          (handlePairVerifyAp1 env config w request response).world.conn.pairing →
        second.body = some message →
        ∃ pairing, handlePairVerifyAp1 env config w' second answer =
            .none (w'.mapConn fun conn => { conn with pairing }) answer ∧
          pairing.status = .finished ∧ pairing.ecdhSecret = secret := by
  let started := PairingSession.startedBy env client w.ambient.ephemeralSecret
  have ours : started.ecdhOurs.length = 32 := works.length_ephemeral _
  have agree : env.crypto.x25519.diffieHellman client.ecdhSecret started.ecdhOurs =
      started.ecdhSecret := works.agree _ _
  obtain ⟨ks, adds⟩ := aes_eq_xorFrom counter started.ecdhSecret
  have valid : env.crypto.ed25519.verify client.serverKey (started.ecdhOurs ++ client.ecdhKey env)
      (env.crypto.ed25519.sign config.pairingSeed (started.ecdhOurs ++ started.ecdhTheirs)) =
        true := by
    rw [trusted]
    exact works.verify_sign _ _
  obtain ⟨size, finished⟩ := finish_startedBy works counter client w.ambient.ephemeralSecret
  let signature := env.crypto.ed25519.sign client.seed (client.ecdhKey env ++ started.ecdhOurs)
  let encrypted :=
    (LegacyClient.aes env started.ecdhSecret (List.replicate 64 0 ++ signature)).drop 64
  rw [handlePairVerifyAp1_m1 works fresh m1]
  refine ⟨_, started.ecdhSecret, [0, 0, 0, 0] ++ encrypted, rfl, ?_, ?_⟩
  · have decrypted (text : List UInt8) : LegacyClient.aes env started.ecdhSecret
        (LegacyClient.aes env started.ecdhSecret text) = text := by
      rw [adds, adds, xorFrom_xorFrom]
    simp only [LegacyClient.receive]
    rw [List.take_left' ours, List.drop_left' ours, agree, decrypted, if_pos valid]
  · intro w' second answer same body
    have current : w'.conn.pairing = started := same
    have first : ([0, 0, 0, 0] ++ encrypted).head? = some 0 := rfl
    have long : ([0, 0, 0, 0] ++ encrypted).length = 68 := by
      rw [List.length_append, show encrypted.length = 64 from size]
      rfl
    have done : started.finish env (([0, 0, 0, 0] ++ encrypted).drop 4) =
        ({ started with status := .finished }, .ok ()) := finished
    refine ⟨{ started with status := .finished }, ?_, rfl, rfl⟩
    simp only [handlePairVerifyAp1, body, first, pairVerifyAp1Finish, long, current, done]
    rfl

end

/-- The first 32 bytes, filled up with zeros. -/
def fixedKey (bytes : List UInt8) : List UInt8 := (bytes ++ List.replicate 32 0).take 32

theorem length_fixedKey (bytes : List UInt8) : (fixedKey bytes).length = 32 := by
  simp [fixedKey]

/-- Counter mode over a block cipher that gives its input back. -/
def openCounterMode (_ iv data : List UInt8) : List UInt8 :=
  if size : iv.length = 16 then ((AesCtr.new (fun block => block) ⟨iv, size⟩).encrypt data).2
  else []

/-- Algorithms that do what pairing expects of them and protect nothing: a signature is the key
twice, and all agree on one secret. -/
def agreeablePlatform : Platform where
  __ := inertPlatform
  crypto :=
    { aead := openCipher
      hkdf := fun _ _ _ length => some (List.replicate length 0)
      sha512 := ⟨zeroHash, length_zeroHash⟩
      ed25519 :=
        ⟨fixedKey, fun seed _ => fixedKey seed ++ fixedKey seed, fun _ => true,
          fun key _ signature => signature == key ++ key⟩
      x25519 := ⟨fixedKey, fun _ _ => List.replicate 32 1⟩ }
  aesCtr := openCounterMode

theorem agreeablePlatform_works : agreeablePlatform.crypto.Works where
  aead := openCipher_inverts
  hkdf _ _ _ := rfl
  length_publicKey := length_fixedKey
  validKey _ := rfl
  length_sign seed _ := by simp [agreeablePlatform, length_fixedKey]
  verify_sign seed _ := by simp [agreeablePlatform]
  length_ephemeral := length_fixedKey
  agree _ _ := rfl

theorem agreeablePlatform_counterMode : agreeablePlatform.CounterMode fun _ block => block := by
  intro key iv data _ size
  exact dif_pos size

/-- A client that has the server's key from pair-setup. -/
def legacyClient : LegacyClient where
  seed := [7]
  ecdhSecret := [9]
  serverKey := fixedKey plainConfig.pairingSeed

/-- A connection before its first request. -/
def freshWorld : World := { conn := { localAddr := [], nonce := "" }, shared := {}, ambient := {} }

/-- The reply to the client's M1 on a fresh connection is one that the client takes. -/
theorem legacyVerify_completes_fresh :
    ∃ reply secret message,
      (handlePairVerifyAp1 agreeablePlatform plainConfig freshWorld
        { body := some (legacyClient.m1 agreeablePlatform) }
        (HttpResponse.new "RTSP/1.0" 200 "OK")).body = some reply ∧
      legacyClient.receive agreeablePlatform reply = some (secret, message) := by
  obtain ⟨reply, secret, message, replied, received, _⟩ :=
    @legacyVerify_completes agreeablePlatform _ plainConfig legacyClient freshWorld
      { body := some (legacyClient.m1 agreeablePlatform) } (HttpResponse.new "RTSP/1.0" 200 "OK")
      agreeablePlatform_works agreeablePlatform_counterMode rfl rfl rfl
  exact ⟨reply, secret, message, replied, received⟩

end Shairplay.Raop
