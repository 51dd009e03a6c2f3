import Shairplay.Raop.Rtsp

/-!
# What handlers leave alone

Only the two pairing handlers touch the credentials of a connection, and only pair-setup
touches the pairing store. Each handler is followed through its steps once; everything later
uses the result for the whole route table.
-/

namespace Shairplay.Raop

open Lib Proto Crypto

/-- The part of a connection that pairing is about. -/
structure Credentials where
  srpServer : Option SrpServer
  pairVerify : Option PairVerifyServer
  ap2SharedSecret : Option (List UInt8)
  isAp2 : Bool
  nonce : String

def RaopConnection.credentials (conn : RaopConnection) : Credentials where
  srpServer := conn.srpServer
  pairVerify := conn.pairVerify
  ap2SharedSecret := conn.ap2SharedSecret
  isAp2 := conn.isAp2
  nonce := conn.nonce

/-- The start of an audio receiver of the second protocol version. -/
def Effect.startsAudio : Effect → Bool
  | .audioStarted _ => true
  | _ => false

/-- Credentials and pairing store stay, and each new effect is one of the allowed ones. -/
structure Keeps (allowed : Effect → Prop) (w w' : World) : Prop where
  credentials : w'.conn.credentials = w.conn.credentials
  pairingStore : w'.shared.pairingStore = w.shared.pairingStore
  effects : ∃ new, w'.effects = w.effects ++ new ∧ ∀ effect ∈ new, allowed effect

/-- No audio receiver is started. -/
def Quiet (effect : Effect) : Prop := effect.startsAudio = false

/-- The start of an RTP session with the mirroring keys. -/
def Effect.startsLegacy : Effect → Bool
  | .audioStarted (.legacyRealtime _ _) => true
  | _ => false

/-- No RTP session is started with the mirroring keys. -/
def NotLegacy (effect : Effect) : Prop := effect.startsLegacy = false

theorem Quiet.notLegacy {effect : Effect} (quiet : Quiet effect) : NotLegacy effect := by
  cases effect with
  | audioStarted stream => cases quiet
  | _ => rfl

namespace Keeps

variable {allowed : Effect → Prop} {w w' w'' : World}

@[refl] theorem refl (w : World) : Keeps allowed w w :=
  ⟨rfl, rfl, [], by simp, by simp⟩

/-- Nothing but other parts of the state changed. -/
theorem still (credentials : w'.conn.credentials = w.conn.credentials)
    (pairingStore : w'.shared.pairingStore = w.shared.pairingStore)
    (effects : w'.effects = w.effects) : Keeps allowed w w' :=
  ⟨credentials, pairingStore, [], by simp [effects], by simp⟩

theorem trans (first : Keeps allowed w w') (second : Keeps allowed w' w'') :
    Keeps allowed w w'' := by
  obtain ⟨new, eq, fine⟩ := first.effects
  obtain ⟨new', eq', fine'⟩ := second.effects
  refine ⟨second.credentials.trans first.credentials, second.pairingStore.trans first.pairingStore,
    new ++ new', by rw [eq', eq, List.append_assoc], ?_⟩
  intro effect mem
  exact (List.mem_append.mp mem).elim (fine effect) (fine' effect)

theorem mono {other : Effect → Prop} (h : Keeps allowed w w')
    (weaker : ∀ effect, allowed effect → other effect) : Keeps other w w' := by
  obtain ⟨new, eq, fine⟩ := h.effects
  exact ⟨h.credentials, h.pairingStore, new, eq, fun effect mem => weaker effect (fine effect mem)⟩

theorem emit (h : Keeps allowed w w') {effect : Effect} (fine : allowed effect) :
    Keeps allowed w (w'.emit effect) :=
  h.trans ⟨rfl, rfl, [effect], rfl, by simpa using fine⟩

theorem mapConn (h : Keeps allowed w w') {f : RaopConnection → RaopConnection}
    (same : (f w'.conn).credentials = w'.conn.credentials) : Keeps allowed w (w'.mapConn f) :=
  h.trans ⟨same, rfl, [], by simp [World.mapConn], by simp⟩

theorem bind (h : Keeps allowed w w') : Keeps allowed w w'.bind.1 :=
  h.trans ⟨by simp, by simp, [], by simp, by simp⟩

theorem srpServer (h : Keeps allowed w w') : w'.conn.srpServer = w.conn.srpServer :=
  congrArg Credentials.srpServer h.credentials

theorem pairVerify (h : Keeps allowed w w') : w'.conn.pairVerify = w.conn.pairVerify :=
  congrArg Credentials.pairVerify h.credentials

theorem ap2SharedSecret (h : Keeps allowed w w') :
    w'.conn.ap2SharedSecret = w.conn.ap2SharedSecret :=
  congrArg Credentials.ap2SharedSecret h.credentials

theorem isAp2 (h : Keeps allowed w w') : w'.conn.isAp2 = w.conn.isAp2 :=
  congrArg Credentials.isAp2 h.credentials

end Keeps

/-- The ends of a connection and of the server by which audio receivers are stopped, and the
number of the next one. -/
structure AudioHandles where
  raopRtp : Option RaopRtp
  playoutCmd : Option Nat
  activeAudio : Option StopHandle
  nextTask : Nat

def World.audio (w : World) : AudioHandles where
  raopRtp := w.conn.raopRtp
  playoutCmd := w.conn.playoutCmd
  activeAudio := w.shared.activeAudio
  nextTask := w.shared.nextTask

def Effect.starts : Effect → Option Nat
  | .rtpStarted task _ _ _ => some task
  | .audioStarted (.realtime task _ _) => some task
  | .audioStarted (.legacyRealtime task _) => some task
  | .audioStarted (.buffered task _ _ _) => some task
  | _ => none

def Effect.stops : Effect → Option Nat
  | .rtpShutdown task => some task
  | .audioAborted task => some task
  | .playoutCommand task .stop => some task
  | _ => none

/-- A timing socket without a session is opened. -/
def Effect.opensTiming : Effect → Bool
  | .timingStarted _ => true
  | _ => false

/-- No audio receiver is started or stopped, and no timing socket is opened. -/
def Inert (effect : Effect) : Prop :=
  effect.starts = none ∧ effect.stops = none ∧ effect.opensTiming = false

theorem Inert.quiet {effect : Effect} (inert : Inert effect) : Quiet effect := by
  cases effect with
  | audioStarted stream => cases stream <;> cases inert.1
  | _ => rfl

/-- Credentials, pairing store and audio handles stay, and nothing starts or stops. -/
structure Still (w w' : World) : Prop extends Keeps Inert w w' where
  audio : w'.audio = w.audio

namespace Still

variable {w w' w'' : World}

@[refl] theorem refl (w : World) : Still w w := ⟨.refl w, rfl⟩

theorem of_eq (credentials : w'.conn.credentials = w.conn.credentials)
    (pairingStore : w'.shared.pairingStore = w.shared.pairingStore) (audio : w'.audio = w.audio)
    (effects : w'.effects = w.effects) : Still w w' :=
  ⟨.still credentials pairingStore effects, audio⟩

theorem trans (first : Still w w') (second : Still w' w'') : Still w w'' :=
  ⟨first.toKeeps.trans second.toKeeps, second.audio.trans first.audio⟩

theorem emit (h : Still w w') {effect : Effect} (inert : Inert effect) : Still w (w'.emit effect) :=
  ⟨h.toKeeps.emit inert, h.audio⟩

theorem mapConn (h : Still w w') {f : RaopConnection → RaopConnection}
    (same : (f w'.conn).credentials = w'.conn.credentials)
    (audio : (w'.mapConn f).audio = w'.audio) : Still w (w'.mapConn f) :=
  h.trans (.of_eq same rfl audio rfl)

theorem bind (h : Still w w') : Still w w'.bind.1 :=
  h.trans (.of_eq (by simp) (by simp) (by simp [World.audio]) (by simp))

theorem keeps (h : Still w w') : Keeps Quiet w w' := h.toKeeps.mono fun _ => Inert.quiet

end Still

variable {env : Platform} {config : RaopConfig} {w : World} {request : Request}
variable {response : HttpResponse}

theorem still_cryptoError (w : World) (e : CryptoError) : Still w (w.cryptoError e) :=
  (Still.refl w).emit ⟨rfl, rfl, rfl⟩

theorem keeps_setRtp {allowed : Effect → Prop} (w : World) (raopRtp : Option RaopRtp) :
    Keeps allowed w (w.setRtp raopRtp) := .still rfl rfl rfl

theorem keeps_releaseRtp (w : World) : Keeps Quiet w w.releaseRtp := by
  unfold World.releaseRtp
  split
  · exact (Keeps.refl w).emit rfl
  · rfl

theorem still_handlePairSetupAp1 :
    Still w (handlePairSetupAp1 env config w request response).world := by
  unfold handlePairSetupAp1
  split
  · rfl
  · split <;> rfl

theorem still_pairVerifyAp1Start (data : List UInt8) :
    Still w (pairVerifyAp1Start env config w data response).world := by
  unfold pairVerifyAp1Start
  split
  · rfl
  · dsimp only
    split <;> exact .of_eq rfl rfl rfl rfl

theorem still_pairVerifyAp1Finish (data : List UInt8) :
    Still w (pairVerifyAp1Finish env w data response).world := by
  unfold pairVerifyAp1Finish
  split
  · rfl
  · dsimp only
    split
    · exact .of_eq rfl rfl rfl rfl
    · exact ((Still.refl w).mapConn rfl rfl).emit ⟨rfl, rfl, rfl⟩

theorem still_handlePairVerifyAp1 :
    Still w (handlePairVerifyAp1 env config w request response).world := by
  unfold handlePairVerifyAp1
  split
  · rfl
  · split
    · rfl
    · split
      · exact still_pairVerifyAp1Start _
      · exact still_pairVerifyAp1Finish _
      · rfl

theorem still_fairplayOutcome (result : FairPlay × Except CryptoError (List UInt8)) :
    Still w (fairplayOutcome w response result).world := by
  unfold fairplayOutcome
  dsimp only
  split
  · exact .of_eq rfl rfl rfl rfl
  · exact ((Still.refl w).mapConn rfl rfl).emit ⟨rfl, rfl, rfl⟩

theorem still_handleFpSetup : Still w (handleFpSetup env w request response).world := by
  unfold handleFpSetup
  split
  · rfl
  · split
    · exact still_fairplayOutcome _
    · split
      · exact still_fairplayOutcome _
      · rfl

theorem still_announcedKey (sdp : Sdp) : Still w (announcedKey env w sdp).1 := by
  unfold announcedKey
  split
  · split
    · rfl
    · exact still_cryptoError w _
  · split
    · exact still_cryptoError w _
    · split
      · rfl
      · split
        · rfl
        · exact still_cryptoError w _
  · rfl

theorem keeps_announceSession (rtpmap : List Char) (fmtp : Option (List Char))
    (encryption : Option AesSession) :
    Keeps Quiet w (announceSession w response rtpmap fmtp encryption).world := by
  unfold announceSession
  dsimp only
  split
  · exact ((keeps_releaseRtp w).trans (keeps_setRtp _ _)).emit rfl
  · exact (keeps_releaseRtp w).trans (keeps_setRtp _ _)

theorem keeps_handleAnnounce : Keeps Quiet w (handleAnnounce env w request response).world := by
  unfold handleAnnounce
  split
  · rfl
  · dsimp only
    split
    · split
      · rfl
      · split
        · rfl
        · split
          · exact keeps_announceSession _ _ _
          · -- a key was announced, so the errors of reading it are reported first
            split
            · exact (still_announcedKey _).keeps
            · split
              · exact (still_announcedKey _).keeps
              · exact (still_announcedKey _).keeps.trans (keeps_announceSession _ _ _)
    · rfl

theorem still_bindRtp (useUdp : Bool) : Still w (bindRtp w useUdp).1 := by
  have one : Still w w.bind.1 := (Still.refl w).bind
  unfold bindRtp
  split
  · dsimp only
    split
    · exact one
    · split
      · exact one.bind
      · exact one.bind.bind
  · exact one

theorem keeps_startRtp (rtp : RaopRtp) (useUdp : Bool) :
    Keeps Quiet w (startRtp w rtp useUdp).1 := by
  have numbered : Keeps Quiet w w.releaseRtp.spawnAudio.1 :=
    (keeps_releaseRtp w).trans (.still rfl rfl rfl)
  exact (numbered.trans (keeps_setRtp _ _)).trans (still_bindRtp useUdp).keeps

theorem still_offerRemoteControl : Still w (offerRemoteControl w request) := by
  unfold offerRemoteControl
  split
  · exact (Still.refl w).emit ⟨rfl, rfl, rfl⟩
  · rfl

theorem keeps_handleSetupAp1 : Keeps Quiet w (handleSetupAp1 w request response).world := by
  unfold handleSetupAp1
  split
  · rfl
  · have offered : Keeps Quiet w (offerRemoteControl w request) := still_offerRemoteControl.keeps
    dsimp only
    split
    · exact offered
    · split
      · exact (offered.trans (keeps_startRtp _ _)).emit rfl
      · exact (offered.trans (keeps_startRtp _ _)).emit rfl

theorem still_textParameter (text : List Char) : Still w (textParameter env w text) := by
  unfold textParameter
  repeat' split
  all_goals first | rfl | exact (Still.refl w).emit ⟨rfl, rfl, rfl⟩

theorem still_handleGetParameter : Still w (handleGetParameter w request response).world := by
  unfold handleGetParameter
  repeat' split
  all_goals rfl

theorem still_handleSetParameter :
    Still w (handleSetParameter env w request response).world := by
  unfold handleSetParameter
  repeat' split
  all_goals first
    | rfl
    | exact still_textParameter _
    | exact (Still.refl w).emit ⟨rfl, rfl, rfl⟩

theorem still_handleFlushInline : Still w (handleFlushInline w request) := by
  unfold handleFlushInline
  repeat' split
  all_goals first | rfl | exact (Still.refl w).emit ⟨rfl, rfl, rfl⟩

theorem keeps_stopRtp (w : World) : Keeps Quiet w w.stopRtp := by
  unfold World.stopRtp
  split
  · exact ((keeps_releaseRtp w).trans (keeps_setRtp _ _)).emit rfl
  · rfl

theorem keeps_handleTeardown (request : Request) :
    Keeps Quiet w (handleTeardown config w request response).world := by
  have stopped := keeps_stopRtp w
  unfold handleTeardown
  dsimp only
  split
  · dsimp only [Outcome.disconnect]
    split
    · exact stopped.emit rfl
    · exact stopped
  · exact stopped

theorem keeps_setActiveAudio (stop : StopHandle) : Keeps Quiet w (w.setActiveAudio stop) := by
  have replaced : Keeps Quiet w
      { w with shared := { w.shared with activeAudio := some stop } } := .still rfl rfl rfl
  unfold World.setActiveAudio
  dsimp only
  split
  · exact replaced
  · exact replaced.emit rfl
  · exact replaced.emit rfl

def Free (_ : Effect) : Prop := True

theorem Keeps.free {allowed : Effect → Prop} {w w' : World} (h : Keeps allowed w w') :
    Keeps Free w w' := h.mono fun _ _ => trivial

theorem Keeps.notLegacy {w w' : World} (h : Keeps Quiet w w') : Keeps NotLegacy w w' :=
  h.mono fun _ => Quiet.notLegacy

theorem keeps_realtimeKeyed (stream resp : Dictionary) (shk : List UInt8) :
    Keeps NotLegacy w (realtimeKeyed config w stream resp shk).1 := by
  have bound : Keeps NotLegacy w w.bind.1 := (Keeps.refl w).bind
  unfold realtimeKeyed
  dsimp only
  split
  · exact bound
  · have spawned : Keeps NotLegacy w w.bind.1.spawnAudio.1 := bound.trans (.still rfl rfl rfl)
    exact (spawned.emit (by rfl)).trans (keeps_setActiveAudio _).notLegacy

theorem keeps_realtimeLegacy (stream resp : Dictionary) :
    Keeps Free w (realtimeLegacy w stream resp).1 := by
  have replaced (raopRtp : Option RaopRtp) : Keeps Free w (w.releaseRtp.setRtp raopRtp) :=
    (keeps_releaseRtp w).free.trans (keeps_setRtp _ _)
  unfold realtimeLegacy
  dsimp only
  -- whether the session can be made does not matter, and is not computed
  generalize RaopRtp.new _ _ _ = raopRtp
  cases raopRtp with
  | none => exact replaced none
  | some rtp =>
    have started := (replaced (some rtp)).trans (keeps_startRtp rtp true).free
    dsimp only
    split
    · exact started
    · exact started.emit trivial

theorem keeps_setupStreamRealtime (stream resp : Dictionary) :
    Keeps Free w (setupStreamRealtime config w stream resp).1 := by
  unfold setupStreamRealtime
  split
  · exact (keeps_realtimeKeyed _ _ _).free
  · split
    · exact keeps_realtimeLegacy _ _
    · exact (Keeps.refl w).emit trivial

theorem keeps_setupStreamBuffered (stream resp : Dictionary) :
    Keeps NotLegacy w (setupStreamBuffered config w stream resp).1 := by
  have bound : Keeps NotLegacy w w.bind.1 := (Keeps.refl w).bind
  unfold setupStreamBuffered
  split
  · exact (Keeps.refl w).emit rfl
  · dsimp only
    split
    · exact bound
    · have spawned : Keeps NotLegacy w w.bind.1.spawnAudio.1 := bound.trans (.still rfl rfl rfl)
      exact ((spawned.emit (by rfl)).mapConn (by rfl)).trans (keeps_setActiveAudio _).notLegacy

theorem still_setupStreamRc (stream resp : Dictionary) :
    Still w (setupStreamRc w stream resp).1 := by
  have bound : Still w w.bind.1 := (Still.refl w).bind
  unfold setupStreamRc
  split
  · rfl
  · dsimp only
    split
    · exact bound
    · exact bound.emit ⟨rfl, rfl, rfl⟩

theorem still_setupStreamVideo (stream resp : Dictionary) :
    Still w (setupStreamVideo env config w stream resp).1 := by
  have bound : Still w w.bind.1 := (Still.refl w).bind
  unfold setupStreamVideo
  dsimp only
  split
  · exact still_cryptoError w _
  · split
    · exact still_cryptoError w _
    · split
      · exact bound
      · dsimp only
        split
        · exact bound.emit ⟨rfl, rfl, rfl⟩
        · exact bound

/-- Only the types 96 and 103 start an audio receiver. -/
theorem keeps_setupStream_quiet {type : Nat} (other : type ≠ 96 ∧ type ≠ 103)
    (stream resp : Dictionary) : Keeps Quiet w (setupStream env config w type stream resp).1 := by
  unfold setupStream
  rw [if_neg other.1, if_neg other.2]
  split
  · exact (still_setupStreamRc _ _).keeps
  · split
    · exact (still_setupStreamVideo _ _).keeps
    · rfl

theorem keeps_setupStream (type : Nat) (stream resp : Dictionary) :
    Keeps Free w (setupStream env config w type stream resp).1 := by
  by_cases realtime : type = 96
  · rw [setupStream, if_pos realtime]
    exact keeps_setupStreamRealtime _ _
  · by_cases buffered : type = 103
    · rw [setupStream, if_neg realtime, if_pos buffered]
      exact (keeps_setupStreamBuffered _ _).free
    · exact (keeps_setupStream_quiet ⟨realtime, buffered⟩ _ _).free

theorem still_captureEkey (dict : Dictionary) : Still w (captureEkey env w dict) := by
  unfold captureEkey
  split
  · rfl
  · split
    · rfl
    · split
      · exact still_cryptoError w _
      · exact .of_eq rfl rfl rfl rfl

theorem still_captureEiv (dict : Dictionary) : Still w (captureEiv w dict) := by
  unfold captureEiv
  split
  · rfl
  · split
    · rfl
    · exact .of_eq rfl rfl rfl rfl

theorem still_openEventChannel : Still w (openEventChannel env config w) := by
  unfold openEventChannel
  split
  · rfl
  · split
    · rfl
    · have opened : Still w
          (w.emit (.eventChannelOpened (buildUpdateInfoMessage env config w))) :=
        (Still.refl w).emit ⟨rfl, rfl, rfl⟩
      exact opened.trans (.of_eq rfl rfl rfl rfl)

/-- A timing socket is opened for a mirroring session without a pairing. -/
theorem openTiming_still_or (w : World) (dict : Dictionary) :
    Still w (openTiming config w dict).1 ∨
      (config.features.video = true ∧ w.conn.isAp2 = false ∧ w.conn.ekey.isSome = true ∧
        w.ambient.ports ≠ []) ∧
      ∃ remotePort, (openTiming config w dict).1 = w.bind.1.emit (.timingStarted remotePort) := by
  have bound : Still w w.bind.1 := (Still.refl w).bind
  unfold openTiming
  split
  · rename_i mirroring
    dsimp only
    split
    · exact .inl bound
    · rename_i opened
      simp only [Bool.and_eq_true, Bool.not_eq_true'] at mirroring
      refine .inr ⟨⟨mirroring.1.1, mirroring.1.2, mirroring.2, ?_⟩, _, rfl⟩
      intro none
      simp only [World.bind, none] at opened
      cases opened
  · exact .inl (.refl w)

theorem still_setupRemoteControlOnly :
    Still w (setupRemoteControlOnly env config w).1 := by
  have bound : Still w w.bind.1 := (Still.refl w).bind
  unfold setupRemoteControlOnly
  split
  · rfl
  · dsimp only
    split
    · exact bound
    · exact bound.trans still_openEventChannel

/-- The initial SETUP of a mirroring session without a pairing, with ports for events and timing. -/
def OpensTiming (env : Platform) (config : RaopConfig) (w : World) (dict : Dictionary) : Prop :=
  config.features.video = true ∧
    ((dict.get "isRemoteControlOnly").bind Plist.asBoolean).getD false = false ∧
    w.conn.isAp2 = false ∧ (captureEkey env w dict).conn.ekey.isSome = true ∧
    2 ≤ w.ambient.ports.length

theorem captureEiv_ekey (dict : Dictionary) : (captureEiv w dict).conn.ekey = w.conn.ekey := by
  unfold captureEiv
  split
  · rfl
  · split <;> rfl

theorem captured_ambient (dict : Dictionary) :
    (captureEiv (captureEkey env w dict) dict).ambient = w.ambient := by
  have ekey : (captureEkey env w dict).ambient = w.ambient := by
    unfold captureEkey
    repeat' split
    all_goals rfl
  rw [← ekey]
  unfold captureEiv
  repeat' split
  all_goals rfl

theorem openEventChannel_ekey :
    (openEventChannel env config w).conn.ekey = w.conn.ekey ∧
      (openEventChannel env config w).ambient = w.ambient := by
  unfold openEventChannel
  repeat' split
  all_goals exact ⟨rfl, rfl⟩

/-- The initial SETUP leaves audio alone, and opens a timing socket in one case. -/
theorem setupInitial_still_or (dict : Dictionary) :
    Still w (setupInitial env config w dict).1 ∨
      OpensTiming env config w dict ∧ ∃ w' remotePort, Still w w' ∧
        (setupInitial env config w dict).1 = w'.emit (.timingStarted remotePort) := by
  have captured : Still w
      (if config.features.video then captureEiv (captureEkey env w dict) dict else w) := by
    split
    · exact (still_captureEkey dict).trans (still_captureEiv dict)
    · rfl
  unfold setupInitial
  dsimp only
  split
  · exact .inl (captured.trans still_setupRemoteControlOnly)
  · rename_i mirrors
    split
    · exact .inl captured.bind
    · have opened := captured.bind.trans (@still_openEventChannel env config _)
      rcases @openTiming_still_or config _ dict with
        still | ⟨⟨video, unpaired, keyed, ports⟩, remotePort, emitted⟩
      · exact .inl (opened.trans still)
      · refine .inr ⟨⟨video, by simpa using mirrors, ?_, ?_, ?_⟩, _, remotePort, opened.bind,
          emitted⟩
        · rw [← opened.keeps.isAp2]
          exact unpaired
        · rw [openEventChannel_ekey.1, World.bind_conn, if_pos video, captureEiv_ekey] at keyed
          exact keyed
        · rw [openEventChannel_ekey.2, if_pos video] at ports
          rw [← @captured_ambient env w dict]
          generalize captureEiv (captureEkey env w dict) dict = w' at ports
          cases listed : w'.ambient.ports with
          | nil => simp [World.bind, listed] at ports
          | cons port rest =>
            cases rest with
            | nil => simp [World.bind, listed] at ports
            | cons => simp

theorem keeps_setupInitial (dict : Dictionary) :
    Keeps Quiet w (setupInitial env config w dict).1 := by
  rcases @setupInitial_still_or env config w dict with
    still | ⟨-, w', remotePort, still, emitted⟩
  · exact still.keeps
  · rw [emitted]
    exact still.keeps.emit rfl

theorem plistBody_world (dict : Dictionary) : (plistBody env w response dict).world = w := by
  unfold plistBody
  split <;> rfl

/-- The type of the first stream a SETUP asks for. -/
def requestedStream (env : Platform) (request : Request) : Option Nat :=
  match (requestPlist env request).bind Plist.asDictionary with
  | none => none
  | some dict =>
    (((Dictionary.get dict "streams").bind Plist.asArray).bind fun streams =>
      streams.head?.bind Plist.asDictionary).bind fun stream =>
        (Dictionary.get stream "type").bind Plist.asUnsignedInteger

theorem keeps_setupStreams (streams : List Plist) :
    Keeps Free w (setupStreams env config w streams).1 := by
  unfold setupStreams
  split
  · rfl
  · split
    · rfl
    · dsimp only
      split
      · exact keeps_setupStream _ _ _
      · exact (keeps_setupStream _ _ _).bind

/-- A stream SETUP for another type starts no audio receiver. -/
theorem keeps_setupStreams_quiet {streams : List Plist}
    (other : ∀ type, (streams.head?.bind Plist.asDictionary).bind (fun stream =>
      (Dictionary.get stream "type").bind Plist.asUnsignedInteger) = some type →
      type ≠ 96 ∧ type ≠ 103) :
    Keeps Quiet w (setupStreams env config w streams).1 := by
  unfold setupStreams
  split
  · rfl
  · rename_i stream first
    split
    · rfl
    · rename_i type named
      have quiet : Keeps Quiet w
          (setupStream env config w type stream [("type", .integer type)]).1 :=
        keeps_setupStream_quiet (other type (by rw [first]; exact named)) _ _
      dsimp only
      split
      · exact quiet
      · exact quiet.bind

/-- SETUP leaves what the setup of its streams, or else the initial setup, leaves. -/
theorem handleSetup_world_of {P : World → Prop}
    (unread : (requestPlist env request).bind Plist.asDictionary = none → P w)
    (ofStreams : ∀ dict streams, (requestPlist env request).bind Plist.asDictionary = some dict →
      (Dictionary.get dict "streams").bind Plist.asArray = some streams →
      P (setupStreams env config w streams).1)
    (ofInitial : ∀ dict, (requestPlist env request).bind Plist.asDictionary = some dict →
      (Dictionary.get dict "streams").bind Plist.asArray = none →
      P (setupInitial env config w dict).1) :
    P (handleSetup env config w request response).world := by
  unfold handleSetup
  split
  · exact unread ‹_›
  · rename_i dict read
    dsimp only
    cases found : (Dictionary.get dict "streams").bind Plist.asArray with
    | some streams =>
      have left := ofStreams dict streams read found
      split
      · exact left
      · rw [plistBody_world]
        exact left
    | none =>
      have left := ofInitial dict read found
      split
      · exact left
      · rw [plistBody_world]
        exact left

theorem keeps_handleSetup : Keeps Free w (handleSetup env config w request response).world := by
  apply handleSetup_world_of fun _ => .refl w
  · intro dict streams _ _
    exact keeps_setupStreams streams
  · intro dict _ _
    exact (keeps_setupInitial dict).free

theorem keeps_handleSetup_quiet
    (other : ∀ type, requestedStream env request = some type → type ≠ 96 ∧ type ≠ 103) :
    Keeps Quiet w (handleSetup env config w request response).world := by
  apply handleSetup_world_of fun _ => .refl w
  · intro dict streams read found
    apply keeps_setupStreams_quiet
    intro type named
    apply other type
    simp only [requestedStream, read, found, Option.bind_some]
    exact named
  · intro dict _ _
    exact keeps_setupInitial dict

theorem still_playout {command : PlayoutCommand} (running : command ≠ .stop) :
    Still w (w.playout command) := by
  unfold World.playout
  split
  · refine (Still.refl w).emit ⟨rfl, ?_, rfl⟩
    cases command with
    | stop => exact absurd rfl running
    | _ => rfl
  · rfl

theorem still_handleSetRateAnchorTime :
    Still w (handleSetRateAnchorTime env w request response).world := by
  unfold handleSetRateAnchorTime
  split
  · rfl
  · exact still_playout (by simp)

theorem still_handleFlushBuffered :
    Still w (handleFlushBuffered env w request response).world := by
  unfold handleFlushBuffered
  split
  · rfl
  · exact still_playout (by simp)

theorem still_handleCommand : Still w (handleCommand env w request response).world := by
  unfold handleCommand
  split
  · exact (Still.refl w).emit ⟨rfl, rfl, rfl⟩
  · rfl

theorem still_handleFeedback (request : Request) :
    Still w (handleFeedback env w request response).world := by
  unfold handleFeedback
  split
  · rfl
  · rw [plistBody_world]

theorem xmlBody_world (dict : Dictionary) : (xmlBody env w response dict).world = w := by
  unfold xmlBody
  split <;> rfl

theorem still_stopHls : Still w w.stopHls := by
  unfold World.stopHls
  split
  · exact (Still.refl w).emit ⟨rfl, rfl, rfl⟩
  · rfl

theorem still_handlePlay : Still w (handlePlay env config w request response).world := by
  unfold handlePlay
  split
  · rfl
  · dsimp only
    split
    · rfl
    · rename_i url _
      split
      · rfl
      · have played (start : Option ℚ) : Still w (w.emit (.hlsPlay url start)) :=
          (Still.refl w).emit ⟨rfl, rfl, rfl⟩
        exact ((played _).trans still_stopHls).trans (.of_eq rfl rfl rfl rfl)

theorem still_handlePlaybackInfo (request : Request) :
    Still w (handlePlaybackInfo env w request response).world := by
  unfold handlePlaybackInfo
  split
  · rfl
  · dsimp only
    rw [xmlBody_world]

theorem still_hlsNumber {key : String} {effect : ℚ → Effect}
    (inert : ∀ value, Inert (effect value)) :
    Still w (hlsNumber env key effect w request response).world := by
  unfold hlsNumber
  split
  · dsimp only [Outcome.none]
    split
    · exact (Still.refl w).emit (inert _)
    · rfl
  · rfl

theorem still_handleStop (request : Request) : Still w (handleStop w request response).world :=
  (still_stopHls).trans (.of_eq rfl rfl rfl rfl)

/-- The handlers that deal with credentials. -/
def Endpoint.pairs : Endpoint → Bool
  | .pairSetup | .pairVerify => true
  | _ => false

/-- The handlers that start or stop audio receivers. -/
def Endpoint.steers : Endpoint → Bool
  | .announce | .setup | .setupAp1 | .teardown => true
  | _ => false

/-- Every other handler leaves credentials and audio alone. -/
theorem still_handler {endpoint : Endpoint} (other : endpoint.pairs = false)
    (idle : endpoint.steers = false) :
    Still w (endpoint.handler env config w request response).world := by
  cases endpoint with
  | pairSetup | pairVerify => cases other
  | announce | setup | setupAp1 | teardown => cases idle
  | pairSetupAp1 => exact still_handlePairSetupAp1
  | pairVerifyAp1 => exact still_handlePairVerifyAp1
  | fpSetup => exact still_handleFpSetup
  | feedback => exact still_handleFeedback request
  | command => exact still_handleCommand
  | getParameter => exact still_handleGetParameter
  | setParameter => exact still_handleSetParameter
  | setRateAnchorTime => exact still_handleSetRateAnchorTime
  | flushBuffered => exact still_handleFlushBuffered
  | info =>
    dsimp only [Endpoint.handler, handleInfo]
    rw [plistBody_world]
  | serverInfo =>
    dsimp only [Endpoint.handler, handleServerInfo]
    rw [xmlBody_world]
  | play => exact still_handlePlay
  | playbackInfo => exact still_handlePlaybackInfo request
  | stop => exact still_handleStop request
  | scrub => exact still_hlsNumber fun _ => ⟨rfl, rfl, rfl⟩
  | rate => exact still_hlsNumber fun _ => ⟨rfl, rfl, rfl⟩
  | flush => exact still_handleFlushInline
  | _ => rfl

/-- Every handler but SETUP of the second version and the two pairings is quiet. -/
theorem keeps_handler_quiet {endpoint : Endpoint} (other : endpoint.pairs = false)
    (setup : endpoint ≠ .setup) :
    Keeps Quiet w (endpoint.handler env config w request response).world := by
  cases steering : endpoint.steers with
  | false => exact (still_handler other steering).keeps
  | true =>
    cases endpoint with
    | setup => exact absurd rfl setup
    | announce => exact keeps_handleAnnounce
    | setupAp1 => exact keeps_handleSetupAp1
    | teardown => exact keeps_handleTeardown request
    | _ => cases steering

/-- Every handler but the two pairings keeps credentials and pairing store. -/
theorem keeps_handler {endpoint : Endpoint} (other : endpoint.pairs = false) :
    Keeps Free w (endpoint.handler env config w request response).world := by
  by_cases setup : endpoint = .setup
  · subst setup
    exact keeps_handleSetup
  · exact (keeps_handler_quiet other setup).free

end Shairplay.Raop
