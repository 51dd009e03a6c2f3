import Shairplay.Raop.Handlers.PairVerify.Client
import Shairplay.Raop.System.Peer

/-!
# An honest controller

A controller that knows the PIN pairs, and one whose key is stored joins a connection, whatever
else happens to the server in between. The state of the controller and of its connection are
related phase by phase; each exchange leads to the next one.
-/

namespace Shairplay.Raop

open Lib Proto Crypto

variable {env : Platform} {config : RaopConfig}

theorem pairingState_of_decodeMessage {data rest : List UInt8} {tlv : TlvValues} {state : UInt8}
    (decoded : decodeMessage data = .ok tlv) (entry : tlv.get 6 = some (state :: rest)) :
    pairingState data = some (some state) := by
  unfold decodeMessage at decoded
  cases parsed : TlvValues.decode data with
  | error e =>
    rw [parsed] at decoded
    cases decoded
  | ok tlv' =>
    rw [parsed] at decoded
    cases decoded
    rw [pairingState, parsed]
    simp only [entry]
    rfl

/-- How far a controller is in pair-setup. -/
inductive SetupState
  | start
  | proving (client : SrpClient)
  | proven (client : SrpClient)
  /-- The accessory has sent its identity. -/
  | paired (accessory accessoryKey : List UInt8)
  /-- A transient session has its key. -/
  | joined (secret : List UInt8)
  | failed
  deriving DecidableEq

/-- The number of successful exchanges. -/
def SetupState.stage : SetupState → Nat
  | .start => 0
  | .proving _ => 1
  | .proven _ => 2
  | .paired _ _ => 3
  | .joined _ => 2
  | .failed => 0

def setupPeer (lib : CryptoLib) (c : Controller) : Peer SetupState where
  message
    | .start => c.setupM1
    | .proving client => client.m3 c.keyLength
    | .proven client => (c.setupM5 lib client.sessionKey).toOption.getD []
    | _ => []
  receive
    | .start, some m2 =>
      match SrpClient.receiveM2 lib.sha512 c.pin c.srpSecret m2 with
      | .ok client => .proving client
      | .error _ => .failed
    | .proving client, some m4 =>
      if m4 = client.expectedM4 lib.sha512 then
        if c.transient then .joined client.sessionKey else .proven client
      else .failed
    | .proven client, some m6 =>
      match Controller.receiveM6 lib client.sessionKey m6 with
      | .ok (accessory, accessoryKey) => .paired accessory accessoryKey
      | .error _ => .failed
    | .paired accessory accessoryKey, _ => .paired accessory accessoryKey
    | .joined secret, _ => .joined secret
    | _, _ => .failed

section Setup

variable (config) in
/-- The state of a controller and of its connection. -/
inductive SetupPhase (c : Controller) : SetupState → Conn env → Prop
  | start {h : Conn env} (unpaired : Unpaired h) : SetupPhase c .start h
  | proving {h : Conn env} {srp : SrpServer}
      {client : SrpClient} {salt secret : List UInt8} (unpaired : Unpaired h)
      (current : h.conn.srpServer = some srp)
      (same : srp.SameExchange (SrpServer.new env.crypto.sha512 config.pin salt secret))
      (transient : srp.isTransient = c.transient)
      (computed : SrpClient.compute env.crypto.sha512 c.pin c.srpSecret
        (Lib.Bytes.beNat srp.salt) srp.bigB = client) :
      SetupPhase c (.proving client) h
  | proven {h : Conn env} {srp : SrpServer}
      {client : SrpClient} (lasting : c.transient = false) (unpaired : Unpaired h)
      (current : h.conn.srpServer = some srp) (verified : srp.verified = true)
      (transient : srp.isTransient = false) (key : srp.sessionKey = client.sessionKey) :
      SetupPhase c (.proven client) h
  | paired {h : Conn env} (lasting : c.transient = false) :
      SetupPhase c (.paired (Utf8.encode config.deviceId)
        (env.crypto.ed25519.publicKey config.identitySeed)) h
  | joined {h : Conn env} {secret : List UInt8}
      (transient : c.transient = true) (joined : Joined secret h) :
      SetupPhase c (.joined secret) h

variable {c : Controller} {h h' : Conn env} {state : SetupState}

/-- A connection that is left alone stays in its phase. -/
theorem SetupPhase.undisturbed (works : env.crypto.Works) (phase : SetupPhase config c state h)
    (still : Server.Undisturbed h h') : SetupPhase config c state h' := by
  have srp : h'.conn.srpServer = h.conn.srpServer :=
    congrArg Credentials.srpServer still.credentials
  cases phase with
  | start unpaired => exact .start (still.unpaired unpaired)
  | proving unpaired current same transient computed =>
    exact .proving (still.unpaired unpaired) (srp.trans current) same transient computed
  | proven lasting unpaired current verified transient key =>
    exact .proven lasting (still.unpaired unpaired) (srp.trans current) verified transient key
  | paired lasting => exact .paired lasting
  | joined transient joined => exact .joined transient (still.joined works.hkdf _ joined)

/-- The number of exchanges that pair-setup takes. -/
def setupLength (c : Controller) : Nat := if c.transient then 2 else 3

section Messages

variable {w : World} {request : Request}

/-- The server's session after the controller's M1. -/
def SrpServer.startedBy (env : Platform) (config : RaopConfig) (ambient : Ambient)
    (c : Controller) : SrpServer :=
  { SrpServer.new env.crypto.sha512 config.pin ambient.srpSalt ambient.srpSecret with
    isTransient := c.transient }

theorem handlePairSetup_setupM1 (allowed : c.transient = true → config.pin = none)
    (body : request.body = some c.setupM1) (response : HttpResponse) :
    handlePairSetup env config w request response =
      { world := w.mapConn fun conn =>
          { conn with srpServer := some (SrpServer.startedBy env config w.ambient c) }
        response := octetStream response
        body := some (SrpServer.startedBy env config w.ambient c).buildM2 } := by
  have state : pairingState c.setupM1 = some (some 1) := by
    cases transient : c.transient with
    | false =>
      simp only [Controller.setupM1, transient, Bool.false_eq_true, if_false]
      exact pairingState_of_decodeMessage (decodeMessage_two _ _ (by decide)) rfl
    | true =>
      simp only [Controller.setupM1, transient, if_true]
      exact pairingState_of_decodeMessage (decodeMessage_three _ _ _ (by decide) (by decide)) rfl
  simp only [handlePairSetup, body, state, pairSetupM1, processM1_setupM1 _ _ _ allowed,
    SrpServer.startedBy]

theorem handlePairSetup_m3 {srp : SrpServer} {salt secret : List UInt8} {client : SrpClient}
    (current : w.conn.srpServer = some srp)
    (same : srp.SameExchange (SrpServer.new env.crypto.sha512 config.pin salt secret))
    (pin : c.pin = config.pin.getD transientPin)
    (computed : SrpClient.compute env.crypto.sha512 c.pin c.srpSecret (Lib.Bytes.beNat srp.salt)
      srp.bigB = client)
    (body : request.body = some (client.m3 c.keyLength)) (response : HttpResponse) :
    (handlePairSetup env config w request response).body =
        some (client.expectedM4 env.crypto.sha512) ∧
      ∃ srp' : SrpServer, srp'.verified = true ∧ srp'.isTransient = srp.isTransient ∧
        srp'.sessionKey = client.sessionKey ∧
        (handlePairSetup env config w request response).world =
          w.mapConn fun conn =>
            if srp.isTransient then
              { conn with
                srpServer := some srp', ap2SharedSecret := some client.sessionKey, isAp2 := true }
            else { conn with srpServer := some srp' } := by
  have state : pairingState (client.m3 c.keyLength) = some (some 3) :=
    pairingState_of_decodeMessage (decodeMessage_three _ _ _ (by decide) (by decide)) rfl
  rw [pin] at computed
  have accepted := SrpServer.processM3_compute env.crypto.sha512 config.pin salt secret c.srpSecret
    c.keyLength same computed
  simp only [handlePairSetup, body, state, pairSetupM3, current, accepted, SrpServer.buildM4,
    Bool.not_true, Bool.false_eq_true, if_false, Bool.true_and, SrpServer.sharedSecret]
  refine ⟨rfl, { srp with
    sessionKey := client.sessionKey
    m2 := calculateHAmk env.crypto.sha512 client.bigA client.proof client.sessionKey
    verified := true }, rfl, rfl, rfl, ?_⟩
  cases srp.isTransient <;> rfl

theorem handlePairSetup_setupM5 (works : env.crypto.Works)
    (short : (Utf8.encode config.deviceId).length ≤ 255) {srp : SrpServer} {client : SrpClient}
    (current : w.conn.srpServer = some srp) (verified : srp.verified = true)
    (transient : srp.isTransient = false) (key : srp.sessionKey = client.sessionKey)
    (body : request.body = some ((c.setupM5 env.crypto client.sessionKey).toOption.getD []))
    (response : HttpResponse) :
    ∃ m6, handlePairSetup env config w request response =
        { world := { w with shared := w.shared.put c.identifier (c.publicKey env.crypto) }.emit
            (.storePut c.identifier (c.publicKey env.crypto))
          response := octetStream response, body := some m6 } ∧
      Controller.receiveM6 env.crypto client.sessionKey m6 =
        .ok (Utf8.encode config.deviceId, env.crypto.ed25519.publicKey config.identitySeed) := by
  obtain ⟨m5, encrypted, built, shape, identified⟩ :=
    setupVerifyClientIdentity_setupM5 (c := c) works client.sessionKey
  obtain ⟨m6, answered, received⟩ :=
    receiveM6_setupBuildAccessoryIdentity works client.sessionKey short config.identitySeed
  rw [built] at body
  have state : pairingState m5 = some (some 5) := by
    rw [shape]
    exact pairingState_of_decodeMessage (decodeMessage_two _ _ (by decide)) rfl
  have processed : srp.processM5 env.crypto m5 = .ok (c.identifier, c.publicKey env.crypto) := by
    rw [SrpServer.processM5, verified, transient, key]
    exact identified
  have built6 : srp.buildM6 env.crypto config.deviceId config.identitySeed = .ok m6 := by
    rw [SrpServer.buildM6, key]
    exact answered
  refine ⟨m6, ?_, received⟩
  rw [handlePairSetup, show request.body = some m5 from body]
  simp only [state, pairSetupM5, current, processed, built6]

/-- An empty body changes nothing. -/
theorem handlePairSetup_nil (body : request.body = some []) (response : HttpResponse) :
    (handlePairSetup env config w request response).world = w := by
  have state : pairingState [] = none := rfl
  simp only [handlePairSetup, body, state, handlePairSetupAp1]
  rfl

end Messages

/-- The controller's key has been put into the store, on its connection. -/
def Recorded (env : Platform) (c : Controller) (id : Nat) (log : List Handled) : Prop :=
  ∃ entry ∈ log, entry.id = id ∧ .storePut c.identifier (c.publicKey env.crypto) ∈ entry.effects

theorem Recorded.append_left {id : Nat} {log : List Handled} (recorded : Recorded env c id log)
    (new : List Handled) : Recorded env c id (log ++ new) := by
  obtain ⟨entry, mem, mine⟩ := recorded
  exact ⟨entry, List.mem_append_left new mem, mine⟩

theorem Recorded.append_right {id : Nat} {new : List Handled} (recorded : Recorded env c id new)
    (log : List Handled) : Recorded env c id (log ++ new) := by
  obtain ⟨entry, mem, mine⟩ := recorded
  exact ⟨entry, List.mem_append_right log mem, mine⟩

/-- An exchange takes the controller one stage further, until it is done. M5 puts its key into
the store. -/
theorem SetupPhase.exchange (works : env.crypto.Works)
    (short : (Utf8.encode config.deviceId).length ≤ 255)
    (pin : c.pin = config.pin.getD transientPin) (allowed : c.transient = true → config.pin = none)
    {s : Server env config} {id : Nat} (known : s.conns[id]? = some h)
    (phase : SetupPhase config c state h) (request : Request)
    (body : request.body = some ((setupPeer env.crypto c).message state))
    (reached : handledBy env config h.conn request = some .pairSetup) (ambient : Ambient) :
    ∃ state', (setupPeer env.crypto c).receive state (s.reply id request ambient) = state' ∧
      (∃ h', (s.step (.request id request ambient)).1.conns[id]? = some h' ∧
        SetupPhase config c state' h') ∧
      state'.stage = min (state.stage + 1) (setupLength c) ∧
      (state'.stage = 3 → state.stage = 3 ∨
        Recorded env c id (s.step (.request id request ambient)).2) := by
  have inside : id < s.conns.length := (List.getElem?_eq_some_iff.mp known).1
  obtain ⟨replied, stepped⟩ := Server.step_exchange known reached ambient
  rw [replied, stepped]
  cases phase with
  | start unpaired =>
    simp only [Endpoint.handler, handlePairSetup_setupM1 allowed body]
    refine ⟨_, rfl, ?_⟩
    simp only [setupPeer, SrpClient.receiveM2_buildM2]
    refine ⟨⟨_, List.getElem?_set_self inside, ?_⟩, ?_, ?_⟩
    · have same : (SrpServer.startedBy env config ambient c).SameExchange
          (SrpServer.new env.crypto.sha512 config.pin ambient.srpSalt ambient.srpSecret) :=
        ⟨rfl, rfl, rfl, rfl⟩
      exact .proving (unpaired.requeued rfl) rfl same rfl rfl
    · simp only [SetupState.stage, setupLength]
      split <;> rfl
    · intro last
      cases last
  | @proving _ srp client _ _ unpaired current same transient computed =>
    obtain ⟨answer, srp', verified, sameKind, key, world⟩ :=
      handlePairSetup_m3 (w := s.world h ambient) current same pin computed body
        (acceptedResponse env config h.conn request)
    rw [transient] at sameKind world
    simp only [Endpoint.handler, answer, world]
    refine ⟨_, rfl, ?_⟩
    simp only [setupPeer, if_true]
    cases kind : c.transient with
    | false =>
      rw [kind] at sameKind
      refine ⟨⟨_, List.getElem?_set_self inside, ?_⟩,
        by simp [SetupState.stage, setupLength, kind], by simp [SetupState.stage]⟩
      exact .proven kind (unpaired.requeued rfl) rfl verified sameKind key
    | true =>
      refine ⟨⟨_, List.getElem?_set_self inside, ?_⟩,
        by simp [SetupState.stage, setupLength, kind], by simp [SetupState.stage]⟩
      exact .joined kind (unpaired.joined rfl)
  | @proven _ srp client lasting unpaired current verified transient key =>
    obtain ⟨m6, handled, received⟩ := handlePairSetup_setupM5 (w := s.world h ambient) works
      short current verified transient key body (acceptedResponse env config h.conn request)
    simp only [Endpoint.handler, handled]
    refine ⟨_, rfl, ?_⟩
    simp only [setupPeer, received]
    refine ⟨⟨_, List.getElem?_set_self inside, .paired lasting⟩, ?_, ?_⟩
    · simp [SetupState.stage, setupLength, lasting]
    · intro _
      exact .inr ⟨_, List.mem_singleton_self _, rfl, by simp [World.emit, Server.world]⟩
  | paired lasting =>
    refine ⟨_, rfl, ⟨_, List.getElem?_set_self inside, .paired lasting⟩, ?_, fun _ => .inl rfl⟩
    simp [SetupState.stage, setupLength, lasting, setupPeer]
  | joined transient joined =>
    have world : (Endpoint.pairSetup.handler env config (s.world h ambient) request
        (acceptedResponse env config h.conn request)).world = s.world h ambient :=
      handlePairSetup_nil body _
    rw [world]
    refine ⟨_, rfl, ⟨_, List.getElem?_set_self inside, .joined transient (joined.requeued rfl)⟩,
      ?_, ?_⟩
    · simp [SetupState.stage, setupLength, transient, setupPeer]
    · intro last
      cases last

end Setup

theorem length_guest : (Utf8.encode "guest").length ≤ 255 := by decide

def guest : Controller where
  identifier := "guest"
  short := length_guest
  seed := [7]
  pin := transientPin
  accessoryKey := List.replicate 32 0
  transient := false
  srpSecret := 3
  keyLength := 384
  ephemeralSecret := [9]

def oneConnection : Server agreeablePlatform plainConfig where
  conns := [⟨{ localAddr := [10, 0, 0, 2], nonce := "nonce" }, none, none⟩]
  shared := {}

def posted (path : String) : Turn := .exchange (pairingRequest path []) {}

/-- Without a password a posted message always reaches the handler of its path. -/
theorem handledBy_posted {path : String} {endpoint : Endpoint}
    (found : ((routes plainConfig.features).find? fun route =>
      route.accepts "POST" path).map Route.endpoint = some endpoint)
    (conn : RaopConnection) (body : List UInt8) :
    handledBy agreeablePlatform plainConfig conn
      { pairingRequest path [] with body := some body } = some endpoint := by
  obtain ⟨route, first, rfl⟩ := Option.map_eq_some_iff.mp found
  have free : authenticated agreeablePlatform plainConfig conn
      { pairingRequest path [] with body := some body } = true := by
    simp [authenticated, plainConfig]
  have url : (pairingRequest path []).url.getD "" = path := rfl
  have method : (pairingRequest path []).method.getD "" = "POST" := rfl
  rw [handledBy, if_pos free, url, method, resolveHandler, first]
  rfl

/-- How far a controller is in pair-verify. -/
inductive VerifyState
  | start
  | answering (secret accessoryEphemeral : List UInt8)
  | joined (secret : List UInt8)
  | failed
  deriving DecidableEq

/-- The number of successful exchanges. -/
def VerifyState.stage : VerifyState → Nat
  | .start => 0
  | .answering _ _ => 1
  | .joined _ => 2
  | .failed => 0

def verifyPeer (lib : CryptoLib) (c : Controller) : Peer VerifyState where
  message
    | .start => c.verifyM1 lib
    | .answering secret accessoryEphemeral =>
      (c.verifyM3 lib secret accessoryEphemeral).toOption.getD []
    | _ => []
  receive
    | .start, some m2 =>
      match c.receiveVerifyM2 lib m2 with
      | .ok (secret, accessoryEphemeral) => .answering secret accessoryEphemeral
      | .error _ => .failed
    | .answering secret _, some m4 =>
      if m4 = Controller.expectedVerifyM4 then .joined secret else .failed
    | .joined secret, _ => .joined secret
    | _, _ => .failed

section Verify

variable (config) in
/-- The state of a controller and of its connection. -/
inductive VerifyPhase (c : Controller) : VerifyState → Conn env → Prop
  | start {h : Conn env} (unpaired : Unpaired h) : VerifyPhase c .start h
  | answering {h : Conn env} {ephemeral : List UInt8} (unpaired : Unpaired h)
      (current : h.conn.pairVerify = some (.startedBy env.crypto c config.deviceId
        config.identitySeed ephemeral)) :
      VerifyPhase c (.answering
        (env.crypto.x25519.diffieHellman ephemeral (c.ephemeralKey env.crypto))
        (env.crypto.x25519.publicKey ephemeral)) h
  | joined {h : Conn env} {secret : List UInt8}
      (joined : Joined secret h) : VerifyPhase c (.joined secret) h

variable {c : Controller} {h h' : Conn env} {state : VerifyState}

theorem VerifyPhase.undisturbed (works : env.crypto.Works) (phase : VerifyPhase config c state h)
    (still : Server.Undisturbed h h') : VerifyPhase config c state h' := by
  cases phase with
  | start unpaired => exact .start (still.unpaired unpaired)
  | answering unpaired current =>
    exact .answering (still.unpaired unpaired)
      ((congrArg Credentials.pairVerify still.credentials).trans current)
  | joined joined => exact .joined (still.joined works.hkdf _ joined)

section Messages

variable {w : World} {request : Request}

theorem handlePairVerify_verifyM1 (works : env.crypto.Works)
    (short : (Utf8.encode config.deviceId).length ≤ 255)
    (trusted : c.accessoryKey = env.crypto.ed25519.publicKey config.identitySeed)
    (body : request.body = some (c.verifyM1 env.crypto)) (response : HttpResponse) :
    let pv := PairVerifyServer.startedBy env.crypto c config.deviceId config.identitySeed
      w.ambient.ephemeralSecret
    ∃ m2, handlePairVerify env config w request response =
        { world := w.mapConn fun conn =>
            { conn with pairVerifySecret := some pv.ecdhSharedSecret, pairVerify := some pv }
          response := octetStream response, body := some m2 } ∧
      c.receiveVerifyM2 env.crypto m2 = .ok (env.crypto.x25519.diffieHellman
        w.ambient.ephemeralSecret (c.ephemeralKey env.crypto),
        env.crypto.x25519.publicKey w.ambient.ephemeralSecret) := by
  intro pv
  have state : pairingState (c.verifyM1 env.crypto) = some (some 1) :=
    pairingState_of_decodeMessage (decodeMessage_two _ _ (by decide)) rfl
  obtain ⟨m2, processed, received⟩ :=
    receiveVerifyM2_processM1BuildM2 works short w.ambient.ephemeralSecret trusted
  refine ⟨m2, ?_, received⟩
  simp only [handlePairVerify, body, state, pairVerifyM1, processed]
  rfl

theorem handlePairVerify_verifyM3 (works : env.crypto.Works) {ephemeral : List UInt8}
    (stored : w.shared.get c.identifier = some (c.publicKey env.crypto))
    (current : w.conn.pairVerify = some (.startedBy env.crypto c config.deviceId
      config.identitySeed ephemeral))
    (body : request.body = some ((c.verifyM3 env.crypto
      (env.crypto.x25519.diffieHellman ephemeral (c.ephemeralKey env.crypto))
      (env.crypto.x25519.publicKey ephemeral)).toOption.getD []))
    (response : HttpResponse) :
    (handlePairVerify env config w request response).body = some Controller.expectedVerifyM4 ∧
      (handlePairVerify env config w request response).world.conn.ap2SharedSecret =
        some (env.crypto.x25519.diffieHellman ephemeral (c.ephemeralKey env.crypto)) := by
  obtain ⟨m3, encrypted, built, shape, accepted⟩ := checkM3_verifyM3 works config.deviceId
    config.identitySeed ephemeral stored
  rw [built] at body
  have state : pairingState m3 = some (some 3) := by
    rw [shape]
    exact pairingState_of_decodeMessage (decodeMessage_two _ _ (by decide)) rfl
  rw [handlePairVerify, show request.body = some m3 from body]
  simp only [state, pairVerifyM3, current, PairVerifyServer.processM3BuildM4, accepted]
  exact ⟨rfl, rfl⟩

/-- An empty body changes nothing. -/
theorem handlePairVerify_nil (body : request.body = some []) (response : HttpResponse) :
    (handlePairVerify env config w request response).world = w := by
  have state : pairingState [] = none := rfl
  simp only [handlePairVerify, body, state, handlePairVerifyAp1]
  rfl

end Messages

/-- An exchange takes the controller one stage further, until it is done. -/
theorem VerifyPhase.exchange (works : env.crypto.Works)
    (short : (Utf8.encode config.deviceId).length ≤ 255)
    (trusted : c.accessoryKey = env.crypto.ed25519.publicKey config.identitySeed)
    {s : Server env config} {id : Nat}
    (stored : s.shared.get c.identifier = some (c.publicKey env.crypto))
    (known : s.conns[id]? = some h) (phase : VerifyPhase config c state h) (request : Request)
    (body : request.body = some ((verifyPeer env.crypto c).message state))
    (reached : handledBy env config h.conn request = some .pairVerify) (ambient : Ambient) :
    ∃ state', (verifyPeer env.crypto c).receive state (s.reply id request ambient) = state' ∧
      (∃ h', (s.step (.request id request ambient)).1.conns[id]? = some h' ∧
        VerifyPhase config c state' h') ∧
      state'.stage = min (state.stage + 1) 2 := by
  have inside : id < s.conns.length := (List.getElem?_eq_some_iff.mp known).1
  obtain ⟨replied, stepped⟩ := Server.step_exchange known reached ambient
  rw [replied, stepped]
  cases phase with
  | start unpaired =>
    obtain ⟨m2, handled, received⟩ := handlePairVerify_verifyM1 (w := s.world h ambient) works
      short trusted body (acceptedResponse env config h.conn request)
    simp only [Endpoint.handler, handled]
    refine ⟨_, rfl, ?_⟩
    simp only [verifyPeer, received]
    exact ⟨⟨_, List.getElem?_set_self inside, .answering (unpaired.requeued rfl) rfl⟩, rfl⟩
  | answering unpaired current =>
    obtain ⟨answer, secret⟩ := handlePairVerify_verifyM3 (w := s.world h ambient) works stored
      current body (acceptedResponse env config h.conn request)
    simp only [Endpoint.handler, answer]
    refine ⟨_, rfl, ?_⟩
    simp only [verifyPeer, if_true]
    exact ⟨⟨_, List.getElem?_set_self inside, .joined (unpaired.joined secret)⟩, rfl⟩
  | joined joined =>
    have world : (Endpoint.pairVerify.handler env config (s.world h ambient) request
        (acceptedResponse env config h.conn request)).world = s.world h ambient :=
      handlePairVerify_nil body _
    rw [world]
    exact ⟨_, rfl, ⟨_, List.getElem?_set_self inside, .joined (joined.requeued rfl)⟩, rfl⟩

def Duo.Stored {σ : Type} (c : Controller) (d : Duo env config σ) : Prop :=
  d.server.shared.get c.identifier = some (c.publicKey env.crypto)

end Verify

/-- A controller whose key is in the store, and which knows the key of the accessory, joins a
connection in two exchanges, whatever else happens in between as long as nobody else pairs on the
connection and the key stays in the store: it never fails, both sides hold the same secret, and the
connection is encrypted with it after the response. -/
theorem pairVerify_completes (works : env.crypto.Works)
    (short : (Utf8.encode config.deviceId).length ≤ 255) {c : Controller}
    (trusted : c.accessoryKey = env.crypto.ed25519.publicKey config.identitySeed)
    {s : Server env config} {id : Nat} {h : Conn env}
    (known : s.conns[id]? = some h) (unpaired : Unpaired h) {turns : List Turn}
    (orderly : Machine.Always (Duo.step (verifyPeer env.crypto c) id)
      (fun d turn => d.Orderly (verifyPeer env.crypto c) id .pairVerify turn ∧ d.Stored c)
      ⟨s, .start⟩ turns)
    (enough : 2 ≤ exchanges turns) :
    let final := (Machine.run (Duo.step (verifyPeer env.crypto c) id) ⟨s, .start⟩ turns).1
    ∃ secret, final.peer = .joined secret ∧
      (final.server.step (.responded id)).1.Encrypts id secret := by
  intro final
  obtain ⟨d, log, ran, ⟨h', found, phase⟩, stage⟩ := Duo.run_stages
    (P := fun _ state h => VerifyPhase config c state h)
    (Q := fun s => s.shared.get c.identifier = some (c.publicKey env.crypto))
    (fun _ _ _ _ _ phase still => phase.undisturbed works still)
    (fun s _ _ _ request ambient stored known phase body reached =>
      phase.exchange works short trusted stored known request body reached ambient)
    (d := ⟨s, .start⟩) [] known (.start unpaired) (Nat.zero_le 2) orderly
  have done : final = d := congrArg Prod.fst ran
  have complete : d.peer.stage = 2 := by
    rw [stage, Nat.min_eq_right]
    exact Nat.le_trans enough (Nat.le_add_left _ _)
  rw [done]
  obtain ⟨server, peer⟩ := d
  cases phase with
  | start _ => cases complete
  | answering _ _ => cases complete
  | joined joined => exact ⟨_, rfl, joined.encrypts works found⟩

/-- The server once it knows the guest. -/
def oneConnectionKnown : Server agreeablePlatform plainConfig :=
  { oneConnection with
    shared := Shared.put {} guest.identifier (guest.publicKey agreeablePlatform.crypto) }

/-- Two exchanges. -/
theorem pairVerify_completes_guest :
    ∃ secret, (Machine.run (Duo.step (verifyPeer agreeablePlatform.crypto guest) 0)
        ⟨oneConnectionKnown, .start⟩ [posted "/pair-verify", posted "/pair-verify"]).1.peer =
          .joined secret := by
  have reach (d : Duo agreeablePlatform plainConfig VerifyState) :
      d.Orderly (verifyPeer agreeablePlatform.crypto guest) 0 .pairVerify (posted "/pair-verify") :=
    fun h _ => handledBy_posted (by decide +kernel) h.conn _
  have orderly : Machine.Always (Duo.step (verifyPeer agreeablePlatform.crypto guest) 0)
      (fun d turn => d.Orderly (verifyPeer agreeablePlatform.crypto guest) 0 .pairVerify turn ∧
        d.Stored guest) ⟨oneConnectionKnown, .start⟩
      [posted "/pair-verify", posted "/pair-verify"] :=
    ⟨⟨reach _, rfl⟩, ⟨reach _, rfl⟩, trivial⟩
  obtain ⟨secret, joined, _⟩ := pairVerify_completes agreeablePlatform_works (by decide) rfl rfl
    ⟨rfl, rfl, rfl⟩ orderly (by decide)
  exact ⟨secret, joined⟩

end Shairplay.Raop
