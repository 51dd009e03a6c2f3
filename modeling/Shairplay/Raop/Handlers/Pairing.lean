import Mathlib.Data.Option.Basic
import Shairplay.Raop.Handlers.Frame

/-!
# Pairing sessions

What the pairing requests of a connection amount to: pair-setup is its last successful M1
with the last M3 whose proof was compared, pair-verify its last successful M1. The handlers
keep their records in step with these sessions, and change the pairing store or the shared
secret only as the sessions allow.
-/

namespace Shairplay.Raop

open Lib Lib.Bytes Proto Crypto

/-- What a pair-setup request adds to the session of its connection. -/
inductive SetupMessage
  /-- An M1 that starts a session, with the random values of the server. -/
  | m1 (salt secret : List UInt8) (transient : Bool)
  /-- An M3 whose proof is compared. -/
  | m3 (bigA : Nat) (proof : List UInt8)

/-- The message in the body of a pair-setup request. -/
def setupMessage (env : Platform) (config : RaopConfig) (ambient : Ambient) (data : List UInt8) :
    Option SetupMessage :=
  match pairingState data with
  | some (some 1) =>
    match (SrpServer.new env.crypto.sha512 config.pin ambient.srpSalt
        ambient.srpSecret).processM1 data with
    | (srp, .ok _) => some (.m1 ambient.srpSalt ambient.srpSecret srp.isTransient)
    | (_, .error _) => none
  | some (some 3) =>
    match SrpServer.parseM3 data with
    | .ok (bigA, proof) => some (.m3 bigA proof)
    | .error _ => none
  | _ => none

/-- A session: its M1, and the last compared proof with the key it came with. -/
structure SetupSession where
  salt : List UInt8
  secret : List UInt8
  transient : Bool
  latest : Option (Nat × List UInt8) := none

namespace SetupSession

/-- M1 starts over; without a session an M3 is not looked at. -/
def after (session : Option SetupSession) : SetupMessage → Option SetupSession
  | .m1 salt secret transient => some { salt, secret, transient }
  | .m3 bigA proof => session.map fun s => { s with latest := some (bigA, proof) }

def ofMessages (messages : List SetupMessage) : Option SetupSession := messages.foldl after none

variable (sha512 : Hash512) (pin : Option String) (s : SetupSession)

/-- The server for the PIN, or for the fixed one, with the random values of M1. -/
def server : SrpServer := SrpServer.new sha512 pin s.salt s.secret

def key (bigA : Nat) : List UInt8 := (s.server sha512 pin).sessionKeyFor sha512 bigA

/-- The proof that a client with the PIN sends along with its public key. -/
def expectedProof (bigA : Nat) : List UInt8 :=
  calculateM sha512 username (beNat s.salt) bigA (s.server sha512 pin).bigB (s.key sha512 pin bigA)

/-- The last compared proof was the right one, for the client's public key. -/
def Proven (bigA : Nat) : Prop := s.latest = some (bigA, s.expectedProof sha512 pin bigA)

/-- The server's record stands for the session. -/
structure Represents (srp : SrpServer) : Prop where
  salt : srp.salt = s.salt
  v : srp.v = (s.server sha512 pin).v
  b : srp.b = (s.server sha512 pin).b
  bigB : srp.bigB = (s.server sha512 pin).bigB
  isTransient : srp.isTransient = s.transient
  allowed : s.transient = true → pin = none
  verified : srp.verified = true → ∃ bigA, s.Proven sha512 pin bigA
  sessionKey : ∀ bigA proof, s.latest = some (bigA, proof) → srp.sessionKey = s.key sha512 pin bigA

end SetupSession

section Setup

variable {sha512 : Hash512} {pin : Option String}

/-- M1 changes nothing but the transient flag, which needs a server without a PIN. -/
theorem processM1_ok {srp srp' : SrpServer} {data : List UInt8}
    (accepted : srp.processM1 data = (srp', .ok ())) :
    srp' = { srp with isTransient := srp'.isTransient } ∧
      (srp'.isTransient = true → srp.allowTransient = true) := by
  unfold SrpServer.processM1 at accepted
  split at accepted
  · cases accepted
  · split at accepted
    · cases accepted
    · split at accepted
      · cases accepted
      · dsimp only at accepted
        split at accepted
        · cases accepted
        · rename_i fine
          cases accepted
          refine ⟨rfl, ?_⟩
          intro transient
          dsimp only at transient
          rw [transient] at fine
          simpa using fine

/-- A session that M1 started is represented by the server it started. -/
theorem represents_m1 {salt secret data : List UInt8} {srp : SrpServer}
    (accepted : (SrpServer.new sha512 pin salt secret).processM1 data = (srp, .ok ())) :
    SetupSession.Represents sha512 pin ⟨salt, secret, srp.isTransient, none⟩ srp := by
  obtain ⟨shape, allowed⟩ := processM1_ok accepted
  refine ⟨?_, ?_, ?_, ?_, rfl, ?_, ?_, ?_⟩
  · rw [shape]; rfl
  · rw [shape]; rfl
  · rw [shape]; rfl
  · rw [shape]; rfl
  · intro transient
    simpa [SrpServer.new] using allowed transient
  · intro verified
    rw [shape] at verified
    cases verified
  · intro bigA proof none
    cases none

/-- The key only depends on what M3 leaves alone. -/
theorem SetupSession.Represents.sessionKeyFor {s : SetupSession} {srp : SrpServer}
    (h : s.Represents sha512 pin srp) (bigA : Nat) :
    srp.sessionKeyFor sha512 bigA = s.key sha512 pin bigA := by
  simp only [SetupSession.key, SrpServer.sessionKeyFor, h.v, h.b, h.bigB]

/-- Comparing a proof keeps server and session in step. The result says whether the proof
was the right one. -/
theorem represents_m3 {s : SetupSession} {srp : SrpServer} (h : s.Represents sha512 pin srp)
    {data proof : List UInt8} {bigA : Nat} (parsed : SrpServer.parseM3 data = .ok (bigA, proof)) :
    SetupSession.Represents sha512 pin { s with latest := some (bigA, proof) }
        (srp.processM3 sha512 data).1 ∧
      ((srp.processM3 sha512 data).2 = .ok true → proof = s.expectedProof sha512 pin bigA) := by
  have expected : calculateM sha512 username (beNat srp.salt) bigA srp.bigB
      (srp.sessionKeyFor sha512 bigA) = s.expectedProof sha512 pin bigA := by
    rw [h.sessionKeyFor, h.salt, h.bigB]
    rfl
  have key (other : Nat) (given : List UInt8) (last : some (bigA, proof) = some (other, given)) :
      srp.sessionKeyFor sha512 bigA = s.key sha512 pin other := by
    cases last
    exact h.sessionKeyFor bigA
  simp only [SrpServer.processM3, parsed, expected]
  split
  · refine ⟨⟨h.salt, h.v, h.b, h.bigB, h.isTransient, h.allowed, ?_, key⟩, ?_⟩
    · intro verified
      cases verified
    · intro right
      cases right
  · rename_i right
    have same : proof = s.expectedProof sha512 pin bigA := by simpa using right
    refine ⟨⟨h.salt, h.v, h.b, h.bigB, h.isTransient, h.allowed, ?_, key⟩, fun _ => same⟩
    intro _
    exact ⟨bigA, by rw [same]; rfl⟩

end Setup

/-- The server's record and the session of a connection belong together. -/
def Tracks (env : Platform) (config : RaopConfig) : Option SrpServer → Option SetupSession → Prop :=
  Option.Rel fun srp s => s.Represents env.crypto.sha512 config.pin srp

/-- What a computation that succeeds has computed on its way. -/
theorem bind_eq_ok {α β : Type} {x : Except CryptoError α} {f : α → Except CryptoError β} {b : β} :
    (x >>= f) = .ok b ↔ ∃ a, x = .ok a ∧ f a = .ok b := by
  cases x with
  | error e =>
    constructor
    · intro fails
      cases fails
    · rintro ⟨a, fails, _⟩
      cases fails
  | ok a =>
    constructor
    · intro rest
      exact ⟨a, rfl, rest⟩
    · rintro ⟨_, same, rest⟩
      cases same
      exact rest

theorem require_eq_ok {tlv : TlvValues} {type : TlvType} {message : String} {value : List UInt8} :
    tlv.require type message = .ok value ↔ tlv.getType type = some value := by
  unfold TlvValues.require
  cases tlv.getType type <;> simp [handshakeError]

/-- An M5 that proves an identity: it decrypts under the key, and its signature over the
derived key, the identifier and the public key is valid under that public key. -/
def ProvesIdentity (lib : CryptoLib) (sessionKey data : List UInt8) (id : String)
    (publicKey : List UInt8) : Prop :=
  ∃ inner identifier signature deviceX,
    decryptSetupM5 lib sessionKey data = .ok inner ∧
    inner.getType .identifier = some identifier ∧ Utf8.fromUtf8 identifier = some id ∧
    inner.getType .publicKey = some publicKey ∧ inner.getType .signature = some signature ∧
    hkdfDerive lib sessionKey "Pair-Setup-Controller-Sign-Salt"
      "Pair-Setup-Controller-Sign-Info" = .ok deviceX ∧
    lib.ed25519.verify publicKey (deviceX ++ identifier ++ publicKey) signature = true

theorem verifyControllerIdentity_ok {lib : CryptoLib}
    {sessionKey identifier signature clientPk publicKey : List UInt8}
    (accepted : verifyControllerIdentity lib sessionKey identifier signature clientPk =
      .ok publicKey) :
    publicKey = clientPk ∧ ∃ deviceX, hkdfDerive lib sessionKey "Pair-Setup-Controller-Sign-Salt"
      "Pair-Setup-Controller-Sign-Info" = .ok deviceX ∧
      lib.ed25519.verify clientPk (deviceX ++ identifier ++ clientPk) signature = true := by
  obtain ⟨deviceX, derived, rest⟩ := bind_eq_ok.mp accepted
  split at rest
  · cases rest
  · split at rest
    · cases rest
    · split at rest
      · cases rest
      · split at rest
        · cases rest
        · rename_i valid
          cases rest
          exact ⟨rfl, deviceX, derived, by simpa using valid⟩

theorem setupVerifyClientIdentity_ok {lib : CryptoLib} {sessionKey data publicKey : List UInt8}
    {id : String} (accepted : setupVerifyClientIdentity lib sessionKey data = .ok (id, publicKey)) :
    ProvesIdentity lib sessionKey data id publicKey := by
  simp only [setupVerifyClientIdentity, bind_eq_ok] at accepted
  obtain ⟨inner, decrypted, identifier, hid, signature, hsig, clientPk, hpk, verified, hver,
    decoded⟩ := accepted
  obtain ⟨rfl, deviceX, derived, valid⟩ := verifyControllerIdentity_ok hver
  cases name : Utf8.fromUtf8 identifier with
  | none =>
    rw [name] at decoded
    cases decoded
  | some text =>
    rw [name] at decoded
    cases decoded
    exact ⟨inner, identifier, signature, deviceX, decrypted, require_eq_ok.mp hid, name,
      require_eq_ok.mp hpk, require_eq_ok.mp hsig, derived, valid⟩

/-- An M5 stores a key: the session is not transient, its last compared proof was right, and
the message proves the identity under its key. -/
def Stores (env : Platform) (config : RaopConfig) (session : Option SetupSession)
    (data : List UInt8) (id : String) (publicKey : List UInt8) : Prop :=
  pairingState data = some (some 5) ∧
  ∃ s bigA, session = some s ∧ s.transient = false ∧
    s.Proven env.crypto.sha512 config.pin bigA ∧
    ProvesIdentity env.crypto (s.key env.crypto.sha512 config.pin bigA) data id publicKey

/-- An M3 completes a transient pairing: there is no PIN, and its proof is the right one for
the session. -/
def CompletesSetup (env : Platform) (config : RaopConfig) (session : Option SetupSession)
    (data secret : List UInt8) : Prop :=
  pairingState data = some (some 3) ∧ config.pin = none ∧
  ∃ s bigA, session = some s ∧ s.transient = true ∧
    SrpServer.parseM3 data = .ok (bigA, s.expectedProof env.crypto.sha512 config.pin bigA) ∧
    secret = s.key env.crypto.sha512 config.pin bigA

/-- The session after a pair-setup request. -/
def nextSetup (env : Platform) (config : RaopConfig) (ambient : Ambient)
    (session : Option SetupSession) (request : Request) : Option SetupSession :=
  match request.body.bind (setupMessage env config ambient) with
  | none => session
  | some message => SetupSession.after session message

/-- What a pair-setup request may do. -/
structure SetupOutcome (env : Platform) (config : RaopConfig) (session : Option SetupSession)
    (request : Request) (w w' : World) : Prop where
  tracks : Tracks env config w'.conn.srpServer (nextSetup env config w.ambient session request)
  pairVerify : w'.conn.pairVerify = w.conn.pairVerify
  store : w'.shared.pairingStore = w.shared.pairingStore ∨
    ∃ data id publicKey, request.body = some data ∧ Stores env config session data id publicKey ∧
      w'.shared = w.shared.put id publicKey
  secret : (w'.conn.ap2SharedSecret = w.conn.ap2SharedSecret ∧ w'.conn.isAp2 = w.conn.isAp2) ∨
    ∃ data secret, request.body = some data ∧ CompletesSetup env config session data secret ∧
      w'.conn.ap2SharedSecret = some secret ∧ w'.conn.isAp2 = true
  audio : w'.audio = w.audio
  effects : ∃ new, w'.effects = w.effects ++ new ∧ ∀ effect ∈ new, Inert effect

section PairSetup

variable {env : Platform} {config : RaopConfig} {session : Option SetupSession} {w : World}
variable {request : Request} {response : HttpResponse} {data : List UInt8}

/-- A request without a message of the session. -/
theorem SetupOutcome.of_still {w' : World} (tracks : Tracks env config w.conn.srpServer session)
    (idle : request.body.bind (setupMessage env config w.ambient) = none) (still : Still w w') :
    SetupOutcome env config session request w w' where
  tracks := by
    rw [still.keeps.srpServer, nextSetup, idle]
    exact tracks
  pairVerify := still.keeps.pairVerify
  store := .inl still.pairingStore
  secret := .inl ⟨still.keeps.ap2SharedSecret, still.keeps.isAp2⟩
  audio := still.audio
  effects := still.effects

theorem pairSetupM1_outcome (tracks : Tracks env config w.conn.srpServer session)
    (body : request.body = some data) (state : pairingState data = some (some 1)) :
    SetupOutcome env config session request w (pairSetupM1 env config w data response).world := by
  cases processed : (SrpServer.new env.crypto.sha512 config.pin w.ambient.srpSalt
      w.ambient.srpSecret).processM1 data with
  | mk srp result =>
    cases result with
    | error e =>
      have idle : request.body.bind (setupMessage env config w.ambient) = none := by
        simp [body, setupMessage, state, processed]
      have failed : (pairSetupM1 env config w data response).world = w.cryptoError e := by
        simp only [pairSetupM1, processed]
      rw [failed]
      exact .of_still tracks idle (still_cryptoError w e)
    | ok _ =>
      have message : request.body.bind (setupMessage env config w.ambient) =
          some (.m1 w.ambient.srpSalt w.ambient.srpSecret srp.isTransient) := by
        simp [body, setupMessage, state, processed]
      have started : (pairSetupM1 env config w data response).world =
          w.mapConn fun conn => { conn with srpServer := some srp } := by
        simp only [pairSetupM1, processed]
      rw [started]
      refine ⟨?_, rfl, .inl rfl, .inl ⟨rfl, rfl⟩, rfl, [], by simp [World.mapConn], by simp⟩
      rw [nextSetup, message]
      exact .some (represents_m1 processed)

/-- A message that cannot be read leaves the server as it is. -/
theorem processM3_of_error {sha512 : Hash512} {srp : SrpServer} {e : CryptoError}
    (unread : SrpServer.parseM3 data = .error e) : srp.processM3 sha512 data = (srp, .error e) := by
  simp [SrpServer.processM3, unread]

/-- An M4 can always be built. -/
theorem buildM4_ok (srp : SrpServer) : ∃ m4, srp.buildM4 = .ok m4 := by
  unfold SrpServer.buildM4
  dsimp only
  split
  · exact ⟨_, rfl⟩
  · exact ⟨_, rfl⟩

theorem sharedSecret_of_verified {srp : SrpServer} (verified : srp.verified = true)
    (transient : srp.isTransient = true) : srp.sharedSecret = some srp.sessionKey := by
  simp [SrpServer.sharedSecret, verified, transient]

theorem verified_of_processM3 {sha512 : Hash512} {srp : SrpServer}
    (right : (srp.processM3 sha512 data).2 = .ok true) :
    (srp.processM3 sha512 data).1.verified = true := by
  unfold SrpServer.processM3 at right ⊢
  split
  · rename_i unread
    simp only [unread] at right
    cases right
  · rename_i bigA proof parsed
    simp only [parsed] at right ⊢
    split
    · rename_i wrong
      rw [if_pos wrong] at right
      cases right
    · rfl

/-- What M3 leaves behind: the server's new record, and the secret of a transient session
whose proof was right. -/
theorem pairSetupM3_world {srp : SrpServer} (current : w.conn.srpServer = some srp) :
    (pairSetupM3 env w data response).world =
      if (srp.processM3 env.crypto.sha512 data).2 = .ok true ∧
          (srp.processM3 env.crypto.sha512 data).1.isTransient = true then
        w.mapConn fun conn =>
          { conn with
            srpServer := some (srp.processM3 env.crypto.sha512 data).1
            ap2SharedSecret := (srp.processM3 env.crypto.sha512 data).1.sharedSecret
            isAp2 := true }
      else
        w.mapConn fun conn =>
          { conn with srpServer := some (srp.processM3 env.crypto.sha512 data).1 } := by
  obtain ⟨m4, built⟩ := buildM4_ok (srp.processM3 env.crypto.sha512 data).1
  simp only [pairSetupM3, current, built]
  cases (srp.processM3 env.crypto.sha512 data).2 with
  | error e => simp [Outcome.none]
  | ok right =>
    cases right with
    | false => simp
    | true =>
      cases (srp.processM3 env.crypto.sha512 data).1.isTransient with
      | false => simp
      | true => simp [World.mapConn]

/-- An M3 that cannot be read changes nothing. -/
theorem pairSetupM3_unread {e : CryptoError} (unread : SrpServer.parseM3 data = .error e) :
    Still w (pairSetupM3 env w data response).world := by
  cases current : w.conn.srpServer with
  | none =>
    simp only [pairSetupM3, current]
    rfl
  | some srp =>
    rw [pairSetupM3_world current, processM3_of_error unread]
    simp only [reduceCtorEq, false_and, if_false]
    refine .of_eq ?_ rfl rfl rfl
    simp [RaopConnection.credentials, World.mapConn, current]

theorem pairSetupM3_outcome (tracks : Tracks env config w.conn.srpServer session)
    (body : request.body = some data) (state : pairingState data = some (some 3)) :
    SetupOutcome env config session request w (pairSetupM3 env w data response).world := by
  cases parsed : SrpServer.parseM3 data with
  | error e =>
    have idle : request.body.bind (setupMessage env config w.ambient) = none := by
      simp [body, setupMessage, state, parsed]
    exact .of_still tracks idle (pairSetupM3_unread parsed)
  | ok sent =>
    obtain ⟨bigA, proof⟩ := sent
    have message : request.body.bind (setupMessage env config w.ambient) =
        some (.m3 bigA proof) := by
      simp [body, setupMessage, state, parsed]
    cases current : w.conn.srpServer with
    | none =>
      rw [current] at tracks
      cases tracks
      have unchanged : (pairSetupM3 env w data response).world = w := by
        simp only [pairSetupM3, current, Outcome.none]
      rw [unchanged]
      refine ⟨?_, rfl, .inl rfl, .inl ⟨rfl, rfl⟩, rfl, [], by simp, by simp⟩
      rw [current, nextSetup, message]
      exact .none
    | some srp =>
      rw [current] at tracks
      cases tracks with
      | @some _ s h =>
        obtain ⟨compared, right⟩ := represents_m3 h parsed
        have next : nextSetup env config w.ambient (some s) request =
            some { s with latest := some (bigA, proof) } := by
          rw [nextSetup, message]
          rfl
        rw [pairSetupM3_world current]
        split
        · rename_i done
          obtain ⟨accepted, transient⟩ := done
          have isTransient : s.transient = true := compared.isTransient ▸ transient
          refine ⟨?_, rfl, .inl rfl, .inr ⟨data,
            s.key env.crypto.sha512 config.pin bigA, body,
            ⟨state, h.allowed isTransient, s, bigA, rfl, isTransient, ?_, rfl⟩, ?_, rfl⟩,
            rfl, [], by simp [World.mapConn], by simp⟩
          · rw [next]
            exact .some compared
          · rw [parsed, right accepted]
          · exact (sharedSecret_of_verified (verified_of_processM3 accepted) transient).trans
              (congrArg some (compared.sessionKey bigA proof rfl))
        · refine ⟨?_, rfl, .inl rfl, .inl ⟨rfl, rfl⟩, rfl, [], by simp [World.mapConn], by simp⟩
          rw [next]
          exact .some compared

/-- Who passes M5 is in a verified session that is not transient. -/
theorem processM5_ok {lib : CryptoLib} {srp : SrpServer} {id : String} {publicKey : List UInt8}
    (accepted : srp.processM5 lib data = .ok (id, publicKey)) :
    srp.verified = true ∧ srp.isTransient = false ∧
      ProvesIdentity lib srp.sessionKey data id publicKey := by
  unfold SrpServer.processM5 at accepted
  split at accepted
  · cases accepted
  · rename_i verified
    split at accepted
    · cases accepted
    · rename_i transient
      exact ⟨by simpa using verified, by simpa using transient,
        setupVerifyClientIdentity_ok accepted⟩

theorem pairSetupM5_outcome (tracks : Tracks env config w.conn.srpServer session)
    (body : request.body = some data) (state : pairingState data = some (some 5)) :
    SetupOutcome env config session request w (pairSetupM5 env config w data response).world := by
  have idle : request.body.bind (setupMessage env config w.ambient) = none := by
    simp [body, setupMessage, state]
  cases current : w.conn.srpServer with
  | none =>
    simp only [pairSetupM5, current]
    exact .of_still tracks idle (.refl w)
  | some srp =>
    cases processed : srp.processM5 env.crypto data with
    | error e =>
      simp only [pairSetupM5, current, processed]
      exact .of_still tracks idle (still_cryptoError w e)
    | ok identity =>
      obtain ⟨id, publicKey⟩ := identity
      cases answered : srp.buildM6 env.crypto config.deviceId config.identitySeed with
      | error e =>
        simp only [pairSetupM5, current, processed, answered]
        exact .of_still tracks idle (.refl w)
      | ok m6 =>
        obtain ⟨verified, transient, proves⟩ := processM5_ok processed
        simp only [pairSetupM5, current, processed, answered]
        rw [current] at tracks
        cases tracks with
        | @some _ s h =>
          obtain ⟨bigA, proven⟩ := h.verified verified
          refine ⟨?_, rfl, .inr ⟨data, id, publicKey, body, ⟨state, s, bigA, rfl,
            h.isTransient ▸ transient, proven, h.sessionKey _ _ proven ▸ proves⟩, rfl⟩,
            .inl ⟨rfl, rfl⟩, rfl, [.storePut id publicKey],
            rfl, by simp [Inert, Effect.starts, Effect.stops,
              Effect.opensTiming]⟩
          rw [nextSetup, idle]
          simp only [World.emit, current]
          exact .some h

/-- The pair-setup handler follows the session of its connection. -/
theorem handlePairSetup_outcome (tracks : Tracks env config w.conn.srpServer session) :
    SetupOutcome env config session request w
      (handlePairSetup env config w request response).world := by
  unfold handlePairSetup
  cases body : request.body with
  | none => exact .of_still tracks (by simp [body]) (.refl w)
  | some data =>
    have idle (other : setupMessage env config w.ambient data = none) :
        request.body.bind (setupMessage env config w.ambient) = none := by
      rw [body]
      exact other
    dsimp only
    split
    · rename_i state
      exact .of_still tracks (idle (by simp [setupMessage, state])) still_handlePairSetupAp1
    · rename_i state
      exact pairSetupM1_outcome tracks body state
    · rename_i state
      exact pairSetupM3_outcome tracks body state
    · rename_i state
      exact pairSetupM5_outcome tracks body state
    · rename_i state first third _ known
      refine .of_still tracks (idle ?_) (.refl w)
      unfold setupMessage
      split
      · rename_i one
        rw [known] at one
        exact absurd (Option.some.inj one) first
      · rename_i three
        rw [known] at three
        exact absurd (Option.some.inj three) third
      · rfl

end PairSetup

/-- A session of pair-verify: the ephemeral secret of the server and the client's key. -/
structure VerifySession where
  ephemeralSecret : List UInt8
  clientKey : List UInt8

/-- The session that a pair-verify request starts: an M1 that is answered. -/
def verifyMessage (env : Platform) (config : RaopConfig) (ambient : Ambient) (data : List UInt8) :
    Option VerifySession :=
  match pairingState data with
  | some (some 1) =>
    match (PairVerifyServer.new env.crypto config.deviceId config.identitySeed
        ambient.ephemeralSecret).processM1BuildM2 env.crypto data with
    | (pv, .ok _) => some ⟨ambient.ephemeralSecret, pv.clientEphPk⟩
    | (_, .error _) => none
  | _ => none

namespace VerifySession

variable (lib : CryptoLib) (s : VerifySession)

/-- The secret both sides compute. -/
def secret : List UInt8 := lib.x25519.diffieHellman s.ephemeralSecret s.clientKey

/-- The server's record stands for the session. -/
structure Represents (pv : PairVerifyServer) : Prop where
  serverEphPk : pv.serverEphPk = lib.x25519.publicKey s.ephemeralSecret
  clientEphPk : pv.clientEphPk = s.clientKey
  ecdhSharedSecret : pv.ecdhSharedSecret = s.secret lib

end VerifySession

def TracksVerify (env : Platform) : Option PairVerifyServer → Option VerifySession → Prop :=
  Option.Rel fun pv s => s.Represents env.crypto pv

/-- An M3 completes pair-verify: it decrypts under a key derived from the session's secret,
and its signature over both ephemeral keys and the claimed identifier is valid under the key
that the store has for this identifier. -/
def CompletesVerify (env : Platform) (store : Shared) (session : Option VerifySession)
    (data secret : List UInt8) : Prop :=
  pairingState data = some (some 3) ∧
  ∃ s encrypted derivedKey plain tlv inner identifier signature id publicKey,
    session = some s ∧ secret = s.secret env.crypto ∧
    decodeMessage data = .ok tlv ∧ tlv.getType .encryptedData = some encrypted ∧
    hkdfDerive env.crypto (s.secret env.crypto) pvEncryptSalt pvEncryptInfo = .ok derivedKey ∧
    decryptChacha env.crypto derivedKey (makeNonce "PV-Msg03") encrypted = .ok plain ∧
    decodeMessage plain = .ok inner ∧
    inner.getType .identifier = some identifier ∧ Utf8.fromUtf8 identifier = some id ∧
    inner.getType .signature = some signature ∧ store.get id = some publicKey ∧
    env.crypto.ed25519.verify publicKey
      (s.clientKey ++ identifier ++ env.crypto.x25519.publicKey s.ephemeralSecret) signature = true

/-- The session after a pair-verify request. -/
def nextVerify (env : Platform) (config : RaopConfig) (ambient : Ambient)
    (session : Option VerifySession) (request : Request) : Option VerifySession :=
  (request.body.bind (verifyMessage env config ambient)).or session

/-- What a pair-verify request may do. -/
structure VerifyOutcome (env : Platform) (config : RaopConfig) (session : Option VerifySession)
    (request : Request) (w w' : World) : Prop where
  tracks : TracksVerify env w'.conn.pairVerify (nextVerify env config w.ambient session request)
  srpServer : w'.conn.srpServer = w.conn.srpServer
  store : w'.shared.pairingStore = w.shared.pairingStore
  secret : (w'.conn.ap2SharedSecret = w.conn.ap2SharedSecret ∧ w'.conn.isAp2 = w.conn.isAp2) ∨
    ∃ data secret, request.body = some data ∧ CompletesVerify env w.shared session data secret ∧
      w'.conn.ap2SharedSecret = some secret ∧ w'.conn.isAp2 = true
  audio : w'.audio = w.audio
  effects : ∃ new, w'.effects = w.effects ++ new ∧ ∀ effect ∈ new, Inert effect

section PairVerify

variable {env : Platform} {config : RaopConfig} {session : Option VerifySession} {w : World}
variable {request : Request} {response : HttpResponse} {data : List UInt8}

theorem VerifyOutcome.of_still {w' : World} (tracks : TracksVerify env w.conn.pairVerify session)
    (idle : request.body.bind (verifyMessage env config w.ambient) = none) (still : Still w w') :
    VerifyOutcome env config session request w w' where
  tracks := by
    rw [still.keeps.pairVerify, nextVerify, idle, Option.none_or]
    exact tracks
  srpServer := still.keeps.srpServer
  store := still.pairingStore
  secret := .inl ⟨still.keeps.ap2SharedSecret, still.keeps.isAp2⟩
  audio := still.audio
  effects := still.effects

/-- An answered M1 has taken over the client's key. -/
theorem processM1BuildM2_ok {lib : CryptoLib} {deviceId : String}
    {identitySeed ephemeralSecret m2 : List UInt8} {pv : PairVerifyServer}
    (answered : (PairVerifyServer.new lib deviceId identitySeed
      ephemeralSecret).processM1BuildM2 lib data = (pv, .ok m2)) :
    VerifySession.Represents lib ⟨ephemeralSecret, pv.clientEphPk⟩ pv := by
  unfold PairVerifyServer.processM1BuildM2 at answered
  split at answered
  · cases answered
  · have shape := congrArg Prod.fst answered
    dsimp only at shape
    subst shape
    exact ⟨rfl, rfl, rfl⟩

theorem pairVerifyM1_outcome (tracks : TracksVerify env w.conn.pairVerify session)
    (body : request.body = some data) (state : pairingState data = some (some 1)) :
    VerifyOutcome env config session request w (pairVerifyM1 env config w data response).world := by
  cases processed : (PairVerifyServer.new env.crypto config.deviceId config.identitySeed
      w.ambient.ephemeralSecret).processM1BuildM2 env.crypto data with
  | mk pv result =>
    cases result with
    | error e =>
      have idle : request.body.bind (verifyMessage env config w.ambient) = none := by
        simp [body, verifyMessage, state, processed]
      have failed : (pairVerifyM1 env config w data response).world = w.cryptoError e := by
        simp only [pairVerifyM1, processed, Outcome.none]
      rw [failed]
      exact .of_still tracks idle (still_cryptoError w e)
    | ok m2 =>
      have message : request.body.bind (verifyMessage env config w.ambient) =
          some ⟨w.ambient.ephemeralSecret, pv.clientEphPk⟩ := by
        simp [body, verifyMessage, state, processed]
      have started : (pairVerifyM1 env config w data response).world =
          w.mapConn fun conn =>
            { conn with
              pairVerifySecret := some pv.ecdhSharedSecret, pairVerify := some pv } := by
        simp only [pairVerifyM1, processed]
      rw [started]
      refine ⟨?_, rfl, rfl, .inl ⟨rfl, rfl⟩, rfl, [], by simp [World.mapConn], by simp⟩
      rw [nextVerify, message, Option.some_or]
      exact .some (processM1BuildM2_ok processed)

theorem verifyStoredKey_ok {lib : CryptoLib} {pv : PairVerifyServer}
    {lookup : String → Option (List UInt8)} {identifier signature : List UInt8}
    (accepted : pv.verifyStoredKey lib lookup identifier signature = .ok ()) :
    ∃ id publicKey, Utf8.fromUtf8 identifier = some id ∧ lookup id = some publicKey ∧
      lib.ed25519.verify publicKey (pv.clientEphPk ++ identifier ++ pv.serverEphPk) signature =
        true := by
  unfold PairVerifyServer.verifyStoredKey at accepted
  split at accepted
  · cases accepted
  · rename_i id decoded
    split at accepted
    · cases accepted
    · rename_i publicKey found
      split at accepted
      · cases accepted
      · split at accepted
        · cases accepted
        · split at accepted
          · cases accepted
          · rename_i valid
            exact ⟨id, publicKey, decoded, found, by simpa using valid⟩

/-- Whoever passes M3 has signed both ephemeral keys with a stored key. -/
theorem checkM3_ok {pv : PairVerifyServer} {s : VerifySession} {store : Shared}
    (h : s.Represents env.crypto pv) (state : pairingState data = some (some 3))
    (accepted : pv.checkM3 env.crypto data (some store.get) = .ok ()) :
    CompletesVerify env store (some s) data (s.secret env.crypto) := by
  unfold PairVerifyServer.checkM3 at accepted
  split at accepted
  · cases accepted
  · obtain ⟨tlv, decoded, accepted⟩ := bind_eq_ok.mp accepted
    obtain ⟨entry, _, accepted⟩ := bind_eq_ok.mp accepted
    split at accepted
    · cases accepted
    · simp only [bind_eq_ok, require_eq_ok, h.ecdhSharedSecret] at accepted
      obtain ⟨encrypted, henc, derivedKey, derived, plain, decrypted, inner, hinner, identifier,
        hid, signature, hsig, stored⟩ := accepted
      obtain ⟨id, publicKey, name, found, valid⟩ := verifyStoredKey_ok stored
      rw [h.clientEphPk, h.serverEphPk] at valid
      exact ⟨state, s, encrypted, derivedKey, plain, tlv, inner, identifier, signature, id,
        publicKey, rfl, rfl, decoded, henc, derived, decrypted, hinner, hid, name, hsig, found,
        valid⟩

theorem pairVerifyM3_outcome (tracks : TracksVerify env w.conn.pairVerify session)
    (body : request.body = some data) (state : pairingState data = some (some 3)) :
    VerifyOutcome env config session request w (pairVerifyM3 env w data response).world := by
  have idle : request.body.bind (verifyMessage env config w.ambient) = none := by
    simp [body, verifyMessage, state]
  cases current : w.conn.pairVerify with
  | none =>
    simp only [pairVerifyM3, current]
    exact .of_still tracks idle (.refl w)
  | some pv =>
    cases checked : pv.checkM3 env.crypto data (some w.shared.get) with
    | error e =>
      simp only [pairVerifyM3, current, PairVerifyServer.processM3BuildM4, checked]
      have same : Still w (w.mapConn fun conn => { conn with pairVerify := some pv }) := by
        refine .of_eq ?_ rfl rfl rfl
        simp [RaopConnection.credentials, World.mapConn, current]
      exact .of_still tracks idle (same.trans (still_cryptoError _ e))
    | ok _ =>
      simp only [pairVerifyM3, current, PairVerifyServer.processM3BuildM4, checked]
      rw [current] at tracks
      cases tracks with
      | @some _ s h =>
        refine ⟨?_, rfl, rfl, .inr ⟨data, s.secret env.crypto, body,
          checkM3_ok h state checked,
          ?_, rfl⟩, rfl, [], by simp [World.mapConn], by simp⟩
        · rw [nextVerify, idle, Option.none_or]
          exact .some ⟨h.serverEphPk, h.clientEphPk, h.ecdhSharedSecret⟩
        · exact congrArg some h.ecdhSharedSecret

/-- The pair-verify handler follows the session of its connection. -/
theorem handlePairVerify_outcome (tracks : TracksVerify env w.conn.pairVerify session) :
    VerifyOutcome env config session request w
      (handlePairVerify env config w request response).world := by
  unfold handlePairVerify
  cases body : request.body with
  | none => exact .of_still tracks (by simp [body]) (.refl w)
  | some data =>
    have idle (other : verifyMessage env config w.ambient data = none) :
        request.body.bind (verifyMessage env config w.ambient) = none := by
      rw [body]
      exact other
    dsimp only
    split
    · rename_i state
      exact .of_still tracks (idle (by simp [verifyMessage, state])) still_handlePairVerifyAp1
    · rename_i state
      exact pairVerifyM1_outcome tracks body state
    · rename_i state
      exact pairVerifyM3_outcome tracks body state
    · rename_i state first _ known
      refine .of_still tracks (idle ?_) (.refl w)
      unfold verifyMessage
      split
      · rename_i one
        rw [known] at one
        exact absurd (Option.some.inj one) first
      · rfl

end PairVerify

end Shairplay.Raop
