import Shairplay.Lib.Machine
import Shairplay.Raop.Handlers.Frame

/-!
# The keys of legacy audio

A mirroring client hands over a key, encrypted by FairPlay, and a vector in its initial SETUP;
a later SETUP for a stream of type 96 without a key of its own starts an RTP session with them.
Either may be missing, malformed or undecryptable, which the initial SETUP does not reject. The
session then starts with zeros in their place, where the video stream is declined.
-/

namespace Shairplay.Raop

open Lib Lib.Machine Proto Crypto

def World.keys (w : World) : Option (List UInt8) × Option (List UInt8) :=
  (w.conn.ekey, w.conn.eiv)

section

variable {env : Platform} {config : RaopConfig} {w : World}

@[simp] theorem keys_emit (effect : Effect) : (w.emit effect).keys = w.keys := rfl

@[simp] theorem keys_setRtp (raopRtp : Option RaopRtp) : (w.setRtp raopRtp).keys = w.keys := rfl

@[simp] theorem keys_spawnAudio : w.spawnAudio.1.keys = w.keys := rfl

@[simp] theorem keys_bind : w.bind.1.keys = w.keys := by
  rw [World.keys, World.bind_conn, World.keys]

@[simp] theorem keys_releaseRtp : w.releaseRtp.keys = w.keys := by
  unfold World.releaseRtp
  split <;> rfl

@[simp] theorem keys_setActiveAudio (stop : StopHandle) :
    (w.setActiveAudio stop).keys = w.keys := by
  unfold World.setActiveAudio
  dsimp only
  split <;> rfl

@[simp] theorem keys_bindRtp (useUdp : Bool) : (bindRtp w useUdp).1.keys = w.keys := by
  unfold bindRtp
  dsimp only
  repeat' split
  all_goals simp only [keys_bind]

@[simp] theorem keys_startRtp (rtp : RaopRtp) (useUdp : Bool) :
    (startRtp w rtp useUdp).1.keys = w.keys := by
  simp only [startRtp, keys_bindRtp, keys_setRtp, keys_spawnAudio, keys_releaseRtp]

theorem keys_realtimeKeyed (stream resp : Dictionary) (shk : List UInt8) :
    (realtimeKeyed config w stream resp shk).1.keys = w.keys := by
  unfold realtimeKeyed
  dsimp only
  split
  · exact keys_bind
  · simp only [keys_setActiveAudio, keys_emit, keys_spawnAudio, keys_bind]

theorem keys_realtimeLegacy (stream resp : Dictionary) :
    (realtimeLegacy w stream resp).1.keys = w.keys := by
  unfold realtimeLegacy
  dsimp only
  generalize RaopRtp.new _ _ _ = raopRtp
  cases raopRtp with
  | none => simp only [keys_setRtp, keys_releaseRtp]
  | some rtp =>
    dsimp only
    split
    · simp only [keys_startRtp, keys_setRtp, keys_releaseRtp]
    · simp only [keys_emit, keys_startRtp, keys_setRtp, keys_releaseRtp]

theorem keys_setupStreamRealtime (stream resp : Dictionary) :
    (setupStreamRealtime config w stream resp).1.keys = w.keys := by
  unfold setupStreamRealtime
  split
  · exact keys_realtimeKeyed _ _ _
  · split
    · exact keys_realtimeLegacy _ _
    · rfl

theorem keys_setupStreamBuffered (stream resp : Dictionary) :
    (setupStreamBuffered config w stream resp).1.keys = w.keys := by
  unfold setupStreamBuffered
  split
  · rfl
  · dsimp only
    split
    · exact keys_bind
    · rw [keys_setActiveAudio]
      exact keys_bind

theorem keys_setupStreamRc (stream resp : Dictionary) :
    (setupStreamRc w stream resp).1.keys = w.keys := by
  unfold setupStreamRc
  split
  · rfl
  · dsimp only
    split <;> simp only [keys_emit, keys_bind]

theorem keys_setupStreamVideo (stream resp : Dictionary) :
    (setupStreamVideo env config w stream resp).1.keys = w.keys := by
  unfold setupStreamVideo
  dsimp only
  split
  · rfl
  · split
    · rfl
    · split
      · exact keys_bind
      · dsimp only
        split <;> simp only [keys_emit, keys_bind]

theorem keys_setupStreams (streams : List Plist) :
    (setupStreams env config w streams).1.keys = w.keys := by
  have one (type : Nat) (stream resp : Dictionary) :
      (setupStream env config w type stream resp).1.keys = w.keys := by
    unfold setupStream
    repeat' split
    · exact keys_setupStreamRealtime _ _
    · exact keys_setupStreamBuffered _ _
    · exact keys_setupStreamRc _ _
    · exact keys_setupStreamVideo _ _
    · rfl
  unfold setupStreams
  split
  · rfl
  · split
    · rfl
    · dsimp only
      split
      · exact one _ _ _
      · rw [keys_bind, one]

theorem keys_openEventChannel : (openEventChannel env config w).keys = w.keys := by
  unfold openEventChannel
  split
  · rfl
  · split <;> rfl

theorem keys_openTiming (dict : Dictionary) : (openTiming config w dict).1.keys = w.keys := by
  unfold openTiming
  split
  · dsimp only
    split <;> simp only [keys_emit, keys_bind]
  · rfl

theorem keys_setupRemoteControlOnly :
    (setupRemoteControlOnly env config w).1.keys = w.keys := by
  unfold setupRemoteControlOnly
  split
  · rfl
  · dsimp only
    split
    · exact keys_bind
    · rw [keys_openEventChannel, keys_bind]

/-- An initial SETUP changes the mirroring keys at its beginning only. -/
theorem keys_setupInitial (video : config.features.video = true) (dict : Dictionary) :
    (setupInitial env config w dict).1.keys = (captureEiv (captureEkey env w dict) dict).keys := by
  unfold setupInitial
  rw [if_pos video]
  dsimp only
  split
  · exact keys_setupRemoteControlOnly
  · split
    · exact keys_bind
    · rw [keys_openTiming, keys_openEventChannel, keys_bind]

end

section

variable (env : Platform)

def initialSetup (request : Request) : Option Dictionary :=
  ((requestPlist env request).bind Plist.asDictionary).filter fun dict =>
    ((Dictionary.get dict "streams").bind Plist.asArray).isNone

/-- The session key made of a decrypted one: a pairing mixes in its secret. -/
def sessionKey (secret : Option (List UInt8)) (fpKey : List UInt8) : List UInt8 :=
  match secret with
  | some secret => sha51216 env [fpKey, secret]
  | none => fpKey

/-- The key of an initial SETUP, if FairPlay can decrypt it. -/
def receivedKey (conn : RaopConnection) (request : Request) : Option (List UInt8) :=
  (initialSetup env request).bind fun dict =>
    (((Dictionary.get dict "ekey").bind Plist.asData).filter fun ekey => ekey.length = 72).bind
      fun ekey =>
        (conn.fairplay.decrypt env ekey).toOption.map (sessionKey env conn.ap2SharedSecret)

/-- The vector of an initial SETUP. -/
def receivedIv (request : Request) : Option (List UInt8) :=
  (initialSetup env request).bind fun dict =>
    ((Dictionary.get dict "eiv").bind Plist.asData).filter fun eiv => eiv.length = 16

variable {env} {config : RaopConfig} {w : World} {request : Request} {response : HttpResponse}

theorem keys_captureEkey (dict : Dictionary) :
    (captureEkey env w dict).keys =
      (((((dict.get "ekey").bind Plist.asData).filter fun ekey => ekey.length = 72).bind fun ekey =>
        (w.conn.fairplay.decrypt env ekey).toOption.map
          (sessionKey env w.conn.ap2SharedSecret)).or w.conn.ekey, w.conn.eiv) := by
  unfold captureEkey
  cases (dict.get "ekey").bind Plist.asData with
  | none => rfl
  | some ekey =>
    dsimp only
    by_cases long : ekey.length = 72
    · rw [if_neg (not_not.mpr long), Option.filter_some_pos (by simpa using long)]
      cases decrypted : w.conn.fairplay.decrypt env ekey with
      | error e => simp [decrypted, Except.toOption, World.cryptoError, World.keys, World.emit]
      | ok fpKey => cases w.conn.ap2SharedSecret <;>
          simp [decrypted, Except.toOption, World.keys, sessionKey]
    · rw [if_pos long, Option.filter_some_neg (by simpa using long)]
      rfl

theorem keys_captureEiv (dict : Dictionary) :
    (captureEiv w dict).keys =
      (w.conn.ekey, (((dict.get "eiv").bind Plist.asData).filter fun eiv => eiv.length = 16).or
          w.conn.eiv) := by
  unfold captureEiv
  cases (dict.get "eiv").bind Plist.asData with
  | none => rfl
  | some eiv =>
    dsimp only
    by_cases long : eiv.length = 16
    · rw [if_neg (not_not.mpr long), Option.filter_some_pos (by simpa using long)]
      rfl
    · rw [if_pos long, Option.filter_some_neg (by simpa using long)]
      rfl

/-- The keys after a SETUP are those it delivered; what it did not deliver stays. -/
theorem keys_handleSetup (video : config.features.video = true) :
    (handleSetup env config w request response).world.keys =
      ((receivedKey env w.conn request).or w.conn.ekey,
        (receivedIv env request).or w.conn.eiv) := by
  have other (initial : initialSetup env request = none) :
      w.keys = ((receivedKey env w.conn request).or w.conn.ekey,
        (receivedIv env request).or w.conn.eiv) := by
    rw [receivedKey, receivedIv, initial]
    rfl
  apply handleSetup_world_of (P := fun w' => w'.keys = _)
  · intro unread
    apply other
    rw [initialSetup, unread]
    rfl
  · intro dict streams read found
    rw [keys_setupStreams]
    apply other
    rw [initialSetup, read, Option.filter_some_neg (by simp [found])]
  · intro dict read none
    have initial : initialSetup env request = some dict := by
      rw [initialSetup, read, Option.filter_some_pos (by simp [none])]
    have first := @keys_captureEkey env w dict
    have ekey := congrArg Prod.fst first
    have eiv := congrArg Prod.snd first
    dsimp only [World.keys] at ekey eiv
    rw [keys_setupInitial video, keys_captureEiv, ekey, eiv, receivedKey, receivedIv, initial]
    rfl

end

section

variable (env : Platform) (config : RaopConfig)

/-- The stream of a SETUP for type 96 without a key of its own. -/
def legacyStream (request : Request) : Option Dictionary :=
  (((requestPlist env request).bind Plist.asDictionary).bind fun dict =>
    ((Dictionary.get dict "streams").bind Plist.asArray).bind fun streams =>
      streams.head?.bind Plist.asDictionary).filter fun stream =>
        (Dictionary.get stream "type").bind Plist.asUnsignedInteger = some 96 ∧
          (((Dictionary.get stream "shk").bind Plist.asData).bind streamSharedKey).isNone

/-- The format line that a legacy stream is given. -/
def legacyFmtp (stream : Dictionary) : String :=
  "96 " ++ toString (stream.unsigned "spf" 352) ++ " 0 16 40 10 14 2 255 0 0 " ++
    toString (stream.unsigned "sr" 44100)

/-- The session of a legacy stream can be made, and there are ports for it. -/
def CanStart (stream : Dictionary) (ambient : Ambient) : Prop :=
  codecSupported "96 AppleLossless" (legacyFmtp stream) = true ∧ 3 ≤ ambient.ports.length

end

section

variable {env : Platform} {config : RaopConfig} {w : World} {request : Request}
  {response : HttpResponse} {stream : Dictionary}

/-- Three sockets are opened for a session over UDP. -/
theorem isSome_bindRtp (w : World) :
    (bindRtp w true).2.isSome = true ↔ 3 ≤ w.ambient.ports.length := by
  obtain ⟨conn, shared, ambient, effects⟩ := w
  obtain ⟨_, _, _, ports, _⟩ := ambient
  cases ports with
  | nil => simp [bindRtp, World.bind]
  | cons control ports =>
    cases ports with
    | nil => simp [bindRtp, World.bind]
    | cons timing ports => cases ports <;> simp [bindRtp, World.bind]

theorem releaseRtp_ambient (w : World) : w.releaseRtp.ambient = w.ambient := by
  unfold World.releaseRtp
  split <;> rfl

theorem isSome_startRtp (w : World) (rtp : RaopRtp) :
    (startRtp w rtp true).2.isSome = true ↔ 3 ≤ w.ambient.ports.length := by
  rw [startRtp, Option.isSome_map, isSome_bindRtp]
  exact (congrArg (fun ambient : Ambient => 3 ≤ ambient.ports.length) (releaseRtp_ambient w)).to_iff

/-- The session that was started is the one that was given. -/
theorem raopRtp_startRtp (w : World) (rtp : RaopRtp) (useUdp : Bool) :
    (startRtp w rtp useUdp).1.conn.raopRtp =
      some { rtp with shutdownTx := some w.releaseRtp.spawnAudio.2 } :=
  congrArg AudioHandles.raopRtp (still_bindRtp useUdp).audio

/-- The keys of a legacy session: zeros for those that are missing. -/
def World.legacySession (w : World) : AesSession where
  key := w.conn.ekey.getD (List.replicate 16 0)
  iv := w.conn.eiv.getD (List.replicate 16 0)

/-- The session a legacy stream asks for, if its format is supported. -/
def legacyRtp (w : World) (stream : Dictionary) : Option RaopRtp :=
  RaopRtp.new "96 AppleLossless".toList (some (legacyFmtp stream).toList) (some w.legacySession)

theorem isSome_legacyRtp (w : World) (stream : Dictionary) :
    (legacyRtp w stream).isSome = codecSupported "96 AppleLossless" (legacyFmtp stream) := by
  rw [legacyRtp, RaopRtp.new, Option.getD_some, String.ofList_toList, String.ofList_toList]
  split <;> simp [*]

theorem encryption_legacyRtp {rtp : RaopRtp} (made : legacyRtp w stream = some rtp) :
    rtp.encryption = some w.legacySession := by
  rw [legacyRtp, RaopRtp.new] at made
  split at made
  · exact Option.some.inj made ▸ rfl
  · cases made

/-- The stream is only acknowledged when its session cannot be made. -/
theorem realtimeLegacy_unsupported (resp : Dictionary) (made : legacyRtp w stream = none) :
    (realtimeLegacy w stream resp).1 = w.releaseRtp.setRtp none := by
  unfold legacyRtp legacyFmtp World.legacySession at made
  unfold realtimeLegacy
  dsimp only
  rw [made]

/-- Otherwise the new session takes the place of the old one and is started, which is told
if there were ports for it. -/
theorem realtimeLegacy_supported (resp : Dictionary) {rtp : RaopRtp}
    (made : legacyRtp w stream = some rtp) :
    let started := startRtp (w.releaseRtp.setRtp (some rtp)) rtp true
    (started.2 = none → (realtimeLegacy w stream resp).1 = started.1) ∧
      ∀ ports, started.2 = some ports →
        (realtimeLegacy w stream resp).1 = started.1.emit (.audioStarted
          (.legacyRealtime ports.1 (asU16 (stream.unsigned "controlPort" 0)))) := by
  intro started
  unfold legacyRtp legacyFmtp World.legacySession at made
  unfold realtimeLegacy
  dsimp only
  rw [made]
  dsimp only
  constructor
  · intro short
    rw [show (startRtp _ rtp true).2 = none from short]
  · intro ports opened
    rw [show (startRtp _ rtp true).2 = some ports from opened]

/-- A session that can start does, with the keys of the connection or zeros. -/
theorem realtimeLegacy_starts (resp : Dictionary) (can : CanStart stream w.ambient) :
    (∃ effect ∈ (realtimeLegacy w stream resp).1.effects, effect.startsLegacy = true) ∧
      ∃ rtp, (realtimeLegacy w stream resp).1.conn.raopRtp = some rtp ∧
        rtp.encryption = some w.legacySession := by
  obtain ⟨supported, free⟩ := can
  obtain ⟨rtp, made⟩ := Option.isSome_iff_exists.mp ((isSome_legacyRtp w stream).trans supported)
  have ports : 3 ≤ (w.releaseRtp.setRtp (some rtp)).ambient.ports.length := by
    rw [← releaseRtp_ambient w] at free
    exact free
  obtain ⟨opened, started⟩ := Option.isSome_iff_exists.mp ((isSome_startRtp _ rtp).mpr ports)
  rw [(realtimeLegacy_supported resp made).2 opened started]
  refine ⟨⟨_, List.mem_append_right _ (List.mem_singleton_self _), rfl⟩, _,
    raopRtp_startRtp _ rtp true, ?_⟩
  exact @encryption_legacyRtp w stream rtp made

/-- A session that cannot start does not. -/
theorem keeps_realtimeLegacy_of_not (resp : Dictionary) (cannot : ¬CanStart stream w.ambient) :
    Keeps NotLegacy w (realtimeLegacy w stream resp).1 := by
  have replaced (raopRtp : Option RaopRtp) : Keeps NotLegacy w (w.releaseRtp.setRtp raopRtp) :=
    (keeps_releaseRtp w).notLegacy.trans (keeps_setRtp _ _)
  cases made : legacyRtp w stream with
  | none =>
    rw [realtimeLegacy_unsupported resp made]
    exact replaced none
  | some rtp =>
    have supported := isSome_legacyRtp w stream
    rw [made] at supported
    have short : (startRtp (w.releaseRtp.setRtp (some rtp)) rtp true).2 = none := by
      rw [← Option.not_isSome_iff_eq_none, isSome_startRtp]
      intro ports
      refine cannot ⟨supported.symm, ?_⟩
      rw [← releaseRtp_ambient w]
      exact ports
    rw [(realtimeLegacy_supported resp made).1 short]
    exact (replaced _).trans (keeps_startRtp rtp true).notLegacy

theorem legacyStream_eq_some :
    legacyStream env request = some stream ↔
      ∃ dict streams, (requestPlist env request).bind Plist.asDictionary = some dict ∧
        (Dictionary.get dict "streams").bind Plist.asArray = some streams ∧
        streams.head?.bind Plist.asDictionary = some stream ∧
        (Dictionary.get stream "type").bind Plist.asUnsignedInteger = some 96 ∧
        ((Dictionary.get stream "shk").bind Plist.asData).bind streamSharedKey = none := by
  simp only [legacyStream, Option.filter_eq_some_iff, Option.bind_eq_some_iff, decide_eq_true_eq,
    Option.isNone_iff_eq_none]
  constructor
  · rintro ⟨⟨dict, read, streams, found, first⟩, type, unkeyed⟩
    exact ⟨dict, streams, read, found, first, type, unkeyed⟩
  · rintro ⟨dict, streams, read, found, first, type, unkeyed⟩
    exact ⟨⟨dict, read, streams, found, first⟩, type, unkeyed⟩

/-- A stream of another type, or with a key of its own, starts no legacy session. -/
theorem keeps_setupStream_notLegacy (type : Nat) (resp : Dictionary)
    (other : type = 96 →
      ((Dictionary.get stream "shk").bind Plist.asData).bind streamSharedKey ≠ none) :
    Keeps NotLegacy w (setupStream env config w type stream resp).1 := by
  by_cases realtime : type = 96
  · obtain ⟨shk, keyed⟩ := Option.ne_none_iff_exists'.mp (other realtime)
    rw [setupStream, if_pos realtime, setupStreamRealtime, keyed]
    exact keeps_realtimeKeyed _ _ shk
  · by_cases buffered : type = 103
    · rw [setupStream, if_neg realtime, if_pos buffered]
      exact keeps_setupStreamBuffered _ _
    · exact (keeps_setupStream_quiet ⟨realtime, buffered⟩ _ _).notLegacy

/-- Only a legacy stream starts a legacy session. -/
theorem keeps_handleSetup_notLegacy (other : legacyStream env request = none) :
    Keeps NotLegacy w (handleSetup env config w request response).world := by
  apply handleSetup_world_of fun _ => .refl w
  · intro dict streams read found
    unfold setupStreams
    split
    · rfl
    · rename_i stream first
      split
      · rfl
      · rename_i type named
        have one : Keeps NotLegacy w
            (setupStream env config w type stream [("type", .integer type)]).1 := by
          apply keeps_setupStream_notLegacy
          rintro rfl unkeyed
          have legacy := legacyStream_eq_some.mpr
            ⟨dict, streams, read, found, first, named, unkeyed⟩
          cases other.symm.trans legacy
        dsimp only
        split
        · exact one
        · exact one.bind
  · intro dict _ _
    exact (keeps_setupInitial dict).notLegacy

/-- A legacy stream is set up as one; the control port is bound afterwards. -/
theorem handleSetup_legacy {P : World → Prop} (video : config.features.video = true)
    (legacy : legacyStream env request = some stream) (bound : ∀ w', P w' → P w'.bind.1)
    (left : ∀ resp, P (realtimeLegacy w stream resp).1) :
    P (handleSetup env config w request response).world := by
  obtain ⟨dict, streams, read, found, first, type, unkeyed⟩ := legacyStream_eq_some.mp legacy
  apply handleSetup_world_of
  · intro unread
    cases unread.symm.trans read
  · intro dict' streams' read' found'
    obtain rfl := Option.some.inj (read.symm.trans read')
    obtain rfl := Option.some.inj (found.symm.trans found')
    have one (resp : Dictionary) :
        setupStream env config w 96 stream resp = realtimeLegacy w stream resp := by
      rw [setupStream, if_pos rfl, setupStreamRealtime, unkeyed]
      exact if_pos video
    unfold setupStreams
    rw [first]
    dsimp only
    rw [type]
    dsimp only
    rw [one]
    -- what setting up the stream returned is not computed
    have after := left [("type", .integer ((96 : Nat) : Int))]
    generalize realtimeLegacy w stream _ = outcome at after ⊢
    split
    · exact after
    · exact bound _ after
  · intro dict' read' none
    obtain rfl := Option.some.inj (read.symm.trans read')
    cases none.symm.trans found

/-- What a legacy stream does to the session. -/
theorem handleSetup_starts (video : config.features.video = true)
    (legacy : legacyStream env request = some stream) (can : CanStart stream w.ambient) :
    (∃ effect ∈ (handleSetup env config w request response).world.effects,
        effect.startsLegacy = true) ∧
      ∃ rtp, (handleSetup env config w request response).world.conn.raopRtp = some rtp ∧
        rtp.encryption = some w.legacySession := by
  apply handleSetup_legacy (P := fun w' => (∃ effect ∈ w'.effects, effect.startsLegacy = true) ∧
    ∃ rtp, w'.conn.raopRtp = some rtp ∧ rtp.encryption = some w.legacySession) video legacy
  · intro w' started
    rw [World.bind_effects, World.bind_conn]
    exact started
  · intro resp
    exact realtimeLegacy_starts resp can

/-- A legacy session is started by a legacy stream that can start, and by nothing else. -/
theorem exists_legacyStream_of_starts (video : config.features.video = true)
    (fresh : w.effects = [])
    (started : ∃ effect ∈ (handleSetup env config w request response).world.effects,
      effect.startsLegacy = true) :
    ∃ stream, legacyStream env request = some stream ∧ CanStart stream w.ambient := by
  have silent (kept : Keeps NotLegacy w (handleSetup env config w request response).world) :
      False := by
    obtain ⟨new, effects, fine⟩ := kept.effects
    obtain ⟨effect, mem, starts⟩ := started
    rw [effects, fresh] at mem
    cases (fine effect mem).symm.trans starts
  cases legacy : legacyStream env request with
  | none => exact (silent (keeps_handleSetup_notLegacy legacy)).elim
  | some stream =>
    refine ⟨stream, rfl, by_contra fun cannot => silent ?_⟩
    exact handleSetup_legacy video legacy (fun _ kept => kept.bind)
      fun resp => keeps_realtimeLegacy_of_not resp cannot

end

/-- A SETUP with the response under construction, what it finds in its surroundings, and how
far FairPlay and pairing have come on the connection. -/
structure SetupRequest where
  request : Request
  response : HttpResponse
  shared : Shared
  ambient : Ambient
  fairplay : FairPlay
  ap2SharedSecret : Option (List UInt8)

def SetupRequest.world (r : SetupRequest) (w : World) : World where
  conn := { w.conn with fairplay := r.fairplay, ap2SharedSecret := r.ap2SharedSecret }
  shared := r.shared
  ambient := r.ambient

section

variable (env : Platform) (config : RaopConfig)

/-- One request of a connection. What it was and the state that it met are logged. -/
def setupStep (w : World) (r : SetupRequest) : World × List (RaopConnection × Request) :=
  ((handleSetup env config (r.world w) r.request r.response).world, [((r.world w).conn, r.request)])

/-- The last key that FairPlay could decrypt. -/
def lastKey (log : List (RaopConnection × Request)) : Option (List UInt8) :=
  log.reverse.findSome? fun entry => receivedKey env entry.1 entry.2

def lastIv (log : List (RaopConnection × Request)) : Option (List UInt8) :=
  log.reverse.findSome? fun entry => receivedIv env entry.2

/-- A legacy session is only started with a key and a vector that were received before, and uses
just these. -/
def LegacyKeyed (log : List (RaopConnection × Request)) (w : World) (r : SetupRequest) : Prop :=
  (∃ effect ∈ (setupStep env config w r).1.effects, effect.startsLegacy = true) →
    ∃ key iv rtp, lastKey env log = some key ∧ lastIv env log = some iv ∧
      (setupStep env config w r).1.conn.raopRtp = some rtp ∧ rtp.encryption = some ⟨key, iv⟩

/-- No legacy stream that can start comes before both keys are there. -/
def KeysFirst (w : World) (r : SetupRequest) : Prop :=
  ∀ stream, legacyStream env r.request = some stream → CanStart stream r.ambient →
    w.conn.ekey.isSome = true ∧ w.conn.eiv.isSome = true

variable {env config}

/-- The connection holds the keys that it received last. -/
theorem run_setupStep_keys (video : config.features.video = true) {w : World}
    (fresh : w.keys = (none, none)) (requests : List SetupRequest) :
    (run (setupStep env config) w requests).1.keys =
      (lastKey env (run (setupStep env config) w requests).2,
        lastIv env (run (setupStep env config) w requests).2) := by
  have keeps (w' : World) (log : List (RaopConnection × Request)) (r : SetupRequest)
      (held : w'.keys = (lastKey env log, lastIv env log)) :
      (setupStep env config w' r).1.keys =
        (lastKey env (log ++ (setupStep env config w' r).2),
          lastIv env (log ++ (setupStep env config w' r).2)) := by
    have ekey : w'.conn.ekey = lastKey env log := congrArg Prod.fst held
    have eiv : w'.conn.eiv = lastIv env log := congrArg Prod.snd held
    refine (keys_handleSetup video).trans ?_
    simp only [SetupRequest.world, ekey, eiv, lastKey, lastIv, setupStep, List.reverse_append,
      List.reverse_singleton, List.singleton_append, List.findSome?_cons]
    congr 1
    · cases receivedKey env _ r.request <;> rfl
    · cases receivedIv env r.request <;> rfl
  have start : w.keys = (lastKey env [], lastIv env []) := fresh
  exact run_history keeps start requests

/-- In a build with video, after every sequence of SETUP requests on a connection: the next one
starts a legacy session only with a key that FairPlay decrypted and a vector, both received
before, and with exactly those, just if it does not ask for one before both are there. -/
theorem legacyKeyed_iff (video : config.features.video = true) (w : World)
    (fresh : w.keys = (none, none)) (requests : List SetupRequest) (r : SetupRequest) :
    let before := run (setupStep env config) w requests
    LegacyKeyed env config before.2 before.1 r ↔ KeysFirst env before.1 r := by
  intro before
  have held : before.1.keys = (lastKey env before.2, lastIv env before.2) :=
    run_setupStep_keys video fresh requests
  have ekey : before.1.conn.ekey = lastKey env before.2 := congrArg Prod.fst held
  have eiv : before.1.conn.eiv = lastIv env before.2 := congrArg Prod.snd held
  constructor
  · intro keyed stream legacy can
    obtain ⟨key, iv, _, received, receivedIv, _⟩ :=
      keyed (handleSetup_starts video legacy can).1
    rw [ekey, eiv, received, receivedIv]
    exact ⟨rfl, rfl⟩
  · intro first started
    obtain ⟨stream, legacy, can⟩ := exists_legacyStream_of_starts video rfl started
    obtain ⟨rtp, session, encryption⟩ := (handleSetup_starts video legacy can).2
    obtain ⟨hasKey, hasIv⟩ := first stream legacy can
    obtain ⟨key, isKey⟩ := Option.isSome_iff_exists.mp hasKey
    obtain ⟨iv, isIv⟩ := Option.isSome_iff_exists.mp hasIv
    refine ⟨key, iv, rtp, ekey ▸ isKey, eiv ▸ isIv, session, ?_⟩
    rw [encryption, World.legacySession]
    simp only [SetupRequest.world, isKey, isIv, Option.getD_some]

end

def videoConfig : RaopConfig :=
  { plainConfig with features := { plainConfig.features with video := true } }

/-- The binary property list of an initial SETUP with both keys. -/
def keysPlist : List UInt8 :=
  Utf8.encode "bplist00" ++ [210, 1, 2, 3, 4, 84] ++ Utf8.encode "ekey" ++ [83] ++
    Utf8.encode "eiv" ++ [79, 16, 72] ++ List.replicate 72 7 ++ [79, 16, 16] ++
    List.replicate 16 2 ++ [8, 13, 18, 22, 97, 0, 0, 0, 0, 0, 0, 1, 1, 0, 0, 0, 0, 0, 0, 0, 5] ++
    List.replicate 15 0 ++ [116]

/-- The binary property list of a SETUP for a stream of type 96 without a key. -/
def legacyPlist : List UInt8 :=
  Utf8.encode "bplist00" ++ [209, 1, 2, 87] ++ Utf8.encode "streams" ++ [161, 3, 209, 4, 5, 84] ++
    Utf8.encode "type" ++ [16, 96, 8, 11, 19, 21, 24, 29, 0, 0, 0, 0, 0, 0, 1, 1] ++
    [0, 0, 0, 0, 0, 0, 0, 6] ++ List.replicate 15 0 ++ [31]

/-- These two lists can be read, and every key decrypts to ones. -/
def mirroringPlatform : Platform where
  __ := inertPlatform
  plistFromBytes := fun data =>
    if data = keysPlist then
      some (.dictionary
        [("ekey", .data (List.replicate 72 7)), ("eiv", .data (List.replicate 16 2))])
    else if data = legacyPlist then
      some (.dictionary [("streams", .array [.dictionary [("type", .integer 96)]])])
    else none
  plistToBinary := fun _ => some []
  playfairDecrypt := fun _ _ => List.replicate 16 1

/-- A SETUP of a client that has finished the FairPlay handshake. -/
def mirroringSetup (body : List UInt8) : SetupRequest where
  request := { body := some body }
  response := HttpResponse.new "RTSP/1.0" 200 "OK"
  shared := {}
  ambient := { ports := [7000, 7001, 7002, 7003] }
  fairplay := { keymsg := List.replicate 164 3, keymsglen := 164 }
  ap2SharedSecret := none

/-- A connection without keys. -/
def keylessWorld : World where
  conn := { localAddr := [], nonce := "" }
  shared := {}
  ambient := {}

theorem legacyKeyed_after_initial :
    let before := run (setupStep mirroringPlatform videoConfig) keylessWorld [mirroringSetup keysPlist]
    let after := setupStep mirroringPlatform videoConfig before.1 (mirroringSetup legacyPlist)
    (LegacyKeyed mirroringPlatform videoConfig before.2 before.1 (mirroringSetup legacyPlist) ∧
      after.1.effects = [.audioStarted (.legacyRealtime 0 0)]) ∧
    after.1.conn.raopRtp.map RaopRtp.encryption =
      some (some ⟨List.replicate 16 1, List.replicate 16 2⟩) := by
  refine ⟨⟨?_, by decide +kernel⟩, by decide +kernel⟩
  apply (@legacyKeyed_iff mirroringPlatform videoConfig rfl keylessWorld rfl
    [mirroringSetup keysPlist] _).mpr
  intro stream _ _
  decide +kernel

/-- On a connection that has received no keys, a legacy stream starts with zeros. -/
theorem legacy_keyed_with_zeros :
    let after := setupStep mirroringPlatform videoConfig keylessWorld (mirroringSetup legacyPlist)
    ¬ LegacyKeyed mirroringPlatform videoConfig [] keylessWorld (mirroringSetup legacyPlist) ∧
      after.1.effects = [.audioStarted (.legacyRealtime 0 0)] ∧
      after.1.conn.raopRtp.map RaopRtp.encryption =
        some (some ⟨List.replicate 16 0, List.replicate 16 0⟩) := by
  intro after
  refine ⟨?_, by decide +kernel, by decide +kernel⟩
  intro keyed
  obtain ⟨key, _, _, received, _⟩ := keyed (by decide +kernel)
  cases received

end Shairplay.Raop
