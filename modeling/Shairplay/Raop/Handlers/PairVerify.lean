import Shairplay.Lib.Machine
import Shairplay.Raop.Rtsp

/-!
# Pair-verify of the first protocol version

A connection has one pairing session, which starts its handshake once. The handler of M1 does
not look at the outcome of the handshake and answers from whatever the session holds. So an M1
that comes while a handshake is under way is answered with the signature for the one before.
-/

namespace Shairplay.Raop

open Lib Proto Crypto
open PairingSession (handshake getPublicKey getSignature)

/-- What `handshake` returns; its effect on the session is separate. -/
def PairingSession.handshakeResult (s : PairingSession) : Except CryptoError Unit :=
  if s.status ≠ .initial then handshakeError "handshake already started" else .ok ()

section

variable (env : Platform) (config : RaopConfig)

/-- The ECDH key of the client in an M1. -/
def m1EcdhKey (data : List UInt8) : List UInt8 := (data.drop 4).take 32

/-- The answer to an M1: our ECDH key, and the signature over it and the client's key,
encrypted under the secret shared with that key. -/
def m1Answer (secret data : List UInt8) : List UInt8 :=
  let ours := env.crypto.x25519.publicKey secret
  let theirs := m1EcdhKey data
  let shared := env.crypto.x25519.diffieHellman secret theirs
  let derived := fun salt => (env.crypto.sha512.hash (Utf8.encode salt ++ shared)).take 16
  ours ++ env.aesCtr (derived "Pair-Verify-AES-Key") (derived "Pair-Verify-AES-IV")
    (env.crypto.ed25519.sign config.pairingSeed (ours ++ theirs))

/-- A pair-verify request, with the response under construction and what it draws. -/
structure VerifyRequest where
  request : Request
  response : HttpResponse
  ambient : Ambient

def verifyOutcome (w : World) (r : VerifyRequest) : Outcome :=
  handlePairVerifyAp1 env config { w with ambient := r.ambient } r.request r.response

/-- One request of a connection; the replies are logged. -/
def verifyStep (w : World) (r : VerifyRequest) : World × List (Option (List UInt8)) :=
  ((verifyOutcome env config w r).world, [(verifyOutcome env config w r).body])

/-- The body of a request is an M1. -/
def VerifyRequest.IsM1 (r : VerifyRequest) (data : List UInt8) : Prop :=
  r.request.body = some data ∧ data.head? = some 1

/-- The session takes an M1: it is well formed, and its handshake is accepted. -/
def CanProcess (w : World) (data : List UInt8) : Prop :=
  data.length = 68 ∧ w.conn.pairing.handshakeResult = .ok ()

/-- An M1 gets the answer that belongs to it or none, and none if the session cannot process
it. -/
def Answers (w : World) (r : VerifyRequest) : Prop :=
  ∀ data, r.IsM1 data →
    (∀ reply, (verifyOutcome env config w r).body = some reply →
      reply = m1Answer env config r.ambient.ephemeralSecret data) ∧
    (¬ CanProcess w data → (verifyOutcome env config w r).body = none)

/-- No well-formed M1 comes while a handshake is under way. -/
def Timely (w : World) (r : VerifyRequest) : Prop :=
  ∀ data, r.IsM1 data → data.length = 68 → w.conn.pairing.status ≠ .handshake

end

section

variable {env : Platform} {config : RaopConfig} {w : World} {r : VerifyRequest}
  {data : List UInt8}

/-- What an M1 is answered with, by the state of the session. -/
theorem verifyOutcome_body (m1 : r.IsM1 data) :
    (data.length ≠ 68 → (verifyOutcome env config w r).body = none) ∧
    (data.length = 68 → w.conn.pairing.status = .initial →
      (verifyOutcome env config w r).body =
        some (m1Answer env config r.ambient.ephemeralSecret data)) ∧
    (data.length = 68 → w.conn.pairing.status = .handshake →
      (verifyOutcome env config w r).body.isSome) ∧
    (data.length = 68 → w.conn.pairing.status = .finished →
      (verifyOutcome env config w r).body = none) := by
  obtain ⟨body, first⟩ := m1
  have start (long : data.length = 68) : verifyOutcome env config w r =
      pairVerifyAp1Start env config { w with ambient := r.ambient } data r.response := by
    rw [verifyOutcome, handlePairVerifyAp1, body]
    simp only [first]
    rw [if_neg (by omega)]
  refine ⟨?_, ?_, ?_, ?_⟩
  · intro other
    rw [verifyOutcome, handlePairVerifyAp1, body]
    simp only [first, pairVerifyAp1Start, if_pos other]
    split <;> rfl
  · intro long initial
    rw [start long, pairVerifyAp1Start, if_neg (not_not.mpr long)]
    simp [handshake, initial, getPublicKey,
      getSignature, PairingSession.aes, PairingSession.deriveKey, m1Answer,
      m1EcdhKey]
  · intro long under
    rw [start long, pairVerifyAp1Start, if_neg (not_not.mpr long)]
    simp [handshake, under, getPublicKey, getSignature]
  · intro long finished
    rw [start long, pairVerifyAp1Start, if_neg (not_not.mpr long)]
    simp [handshake, finished, getPublicKey,
      getSignature, handshakeError, Outcome.none]

/-- One request is answered properly exactly if it is timely. -/
theorem answers_iff_timely : Answers env config w r ↔ Timely w r := by
  constructor
  · intro answers data m1 long under
    have replied := (@verifyOutcome_body env config w r data m1).2.2.1 long under
    have refused : ¬ CanProcess w data := by
      rintro ⟨_, accepted⟩
      rw [PairingSession.handshakeResult, under] at accepted
      cases accepted
    rw [(answers data m1).2 refused] at replied
    cases replied
  · intro timely data m1
    obtain ⟨malformed, initial, _, finished⟩ := @verifyOutcome_body env config w r data m1
    have unanswered (silent : (verifyOutcome env config w r).body = none) (reply : List UInt8) :
        (verifyOutcome env config w r).body ≠ some reply := by
      rw [silent]
      exact (Option.some_ne_none reply).symm
    by_cases long : data.length = 68
    · cases status : w.conn.pairing.status with
      | initial =>
        have answered := initial long status
        refine ⟨?_, ?_⟩
        · intro reply replied
          rw [answered] at replied
          exact (Option.some.inj replied).symm
        · intro refused
          refine absurd ⟨long, ?_⟩ refused
          rw [PairingSession.handshakeResult, status]
          rfl
      | handshake => exact absurd status (timely data m1 long)
      | finished =>
        have silent := finished long status
        exact ⟨fun reply replied => absurd replied (unanswered silent reply), fun _ => silent⟩
    · have silent := malformed long
      exact ⟨fun reply replied => absurd replied (unanswered silent reply), fun _ => silent⟩

/-- Along any sequence of requests on a connection, every M1 gets its own answer, and no answer
if the session cannot process it, exactly if no well-formed M1 comes while a handshake is under
way. -/
theorem pairVerify_answers_iff (env : Platform) (config : RaopConfig) (w : World)
    (requests : List VerifyRequest) :
    Machine.Always (verifyStep env config) (Answers env config) w requests ↔
      Machine.Always (verifyStep env config) Timely w requests := by
  induction requests generalizing w with
  | nil => exact Iff.rfl
  | cons r requests ih => exact and_congr answers_iff_timely (ih _)

end

/-- Surroundings in which a signature shows what was signed, and nothing is hidden. -/
def openPlatform : Platform where
  __ := inertPlatform
  crypto :=
    { inertPlatform.crypto with
      ed25519 := ⟨fun seed => seed, fun _ message => message, fun _ => true, fun _ _ _ => true⟩
      x25519 := ⟨fun secret => secret, fun secret key => secret ++ key⟩ }

/-- An M1 with a key, and the secret drawn for it. -/
def m1Request (secret key : UInt8) : VerifyRequest where
  request := { body := some ([1, 0, 0, 0] ++ List.replicate 32 key ++ List.replicate 32 0) }
  response := HttpResponse.new "RTSP/1.0" 200 "OK"
  ambient := { ephemeralSecret := List.replicate 32 secret }

/-- The second of two M1s with different keys is answered for the key of the first. -/
theorem second_m1_answered_for_first :
    (Machine.run (verifyStep openPlatform plainConfig)
        { conn := { localAddr := [], nonce := "" }, shared := {}, ambient := {} }
        [m1Request 7 1, m1Request 8 2]).2 =
      [some (List.replicate 32 7 ++ (List.replicate 32 7 ++ List.replicate 32 1)),
        some (List.replicate 32 7 ++ (List.replicate 32 7 ++ List.replicate 32 1))] ∧
    m1Answer openPlatform plainConfig (List.replicate 32 8)
        ([1, 0, 0, 0] ++ List.replicate 32 2 ++ List.replicate 32 0) =
      List.replicate 32 8 ++ (List.replicate 32 8 ++ List.replicate 32 2) := by
  decide +kernel

end Shairplay.Raop
