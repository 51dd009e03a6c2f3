import Shairplay.Crypto.ChachaTransport
import Shairplay.Raop.Handlers.Ap2

/-!
# SETUP of the second protocol version

An initial SETUP opens the event channel and hands over the keys of a mirroring session; a
stream SETUP starts one receiver. Each step works on the state and may fail, in which case
what was started before stays started.
-/

namespace Shairplay.Raop

open Lib Proto Crypto

variable (env : Platform) (config : RaopConfig)

/-- Lower-case digits without leading zeros. -/
def hexText (n : Nat) : String := String.ofList (Nat.toDigits 16 n)

def ipv4Text (bytes : List UInt8) : String := ".".intercalate (bytes.map fun b => toString b.toNat)

/-- The eight groups of an address. -/
def segments : List UInt8 → List Nat
  | high :: low :: rest => (high.toNat * 256 + low.toNat) :: segments rest
  | _ => []

/-- Start and length of the first longest run of zeros, from position `i` on. `current` is
the run that ends here, `longest` the best one so far. -/
def longestZeros : (i : Nat) → (current longest : Nat × Nat) → List Nat → Nat × Nat
  | _, _, longest, [] => longest
  | i, current, longest, segment :: rest =>
    if segment = 0 then
      let current := (if current.2 = 0 then i else current.1, current.2 + 1)
      longestZeros (i + 1) current (if longest.2 < current.2 then current else longest) rest
    else longestZeros (i + 1) (0, 0) longest rest

def groupsText (groups : List Nat) : String := ":".intercalate (groups.map hexText)

/-- Mapped addresses end in dotted form; otherwise a run of zeros is left out. -/
def ipv6Text (bytes : List UInt8) : String :=
  if bytes.take 12 = List.replicate 10 0 ++ [0xff, 0xff] then
    "::ffff:" ++ ipv4Text (bytes.drop 12)
  else
    let groups := segments bytes
    let zeros := longestZeros 0 (0, 0) (0, 0) groups
    if 1 < zeros.2 then
      groupsText (groups.take zeros.1) ++ "::" ++ groupsText (groups.drop (zeros.1 + zeros.2))
    else groupsText groups

/-- `ip_from_bytes`, as text. -/
def ipText (bytes : List UInt8) : String :=
  if bytes.length = 16 then ipv6Text bytes else ipv4Text (bytes.take 4)

example : ipText [0x20, 0x01, 0x0d, 0xb8, 0, 0, 0, 0, 0, 0, 0, 0, 0, 0, 0, 1] = "2001:db8::1" := by
  decide +kernel

/-- `set_active_audio`: the session started before, on whatever connection, is stopped. -/
def World.setActiveAudio (w : World) (stop : StopHandle) : World :=
  let previous := w.shared.activeAudio
  let w := { w with shared := { w.shared with activeAudio := some stop } }
  match previous with
  | none => w
  | some (.abort task) => w.emit (.audioAborted task)
  | some (.command task) => w.emit (.playoutCommand task .stop)

structure AlacFormat where
  sampleRate : Nat
  bitDepth : Nat
  channels : Nat
  deriving DecidableEq

def AlacFormat.fromAudioFormat (v : Nat) : Option AlacFormat :=
  if v = 0x00040000 then some ⟨44100, 16, 2⟩
  else if v = 0x00080000 then some ⟨44100, 24, 2⟩
  else if v = 0x00100000 then some ⟨48000, 16, 2⟩
  else if v = 0x00200000 then some ⟨48000, 24, 2⟩
  else none

/-- `StreamSharedKey::from_slice`. -/
def streamSharedKey (data : List UInt8) : Option (List UInt8) :=
  if data.length ≠ 32 then none else some data

/-- Wrap to 32 and to 16 bits, as casts do. -/
def asU32 (n : Nat) : Nat := n % 4294967296

def asU16 (n : Nat) : Nat := n % 65536

/-- Type 96 with a stream key. -/
def realtimeKeyed (w : World) (stream resp : Dictionary) (shk : List UInt8) :
    World × Option Dictionary :=
  let sr := stream.unsigned "sr" 44100
  let format := (AlacFormat.fromAudioFormat (asU32 (stream.unsigned "audioFormat" 0))).getD
    ⟨asU32 sr, 16, 2⟩
  let (w, port) := w.bind
  match port with
  | none => (w, none)
  | some port =>
    let (w, task) := w.spawnAudio
    let w := w.emit (.audioStarted (.realtime task shk
      { sourceSampleRate := format.sampleRate
        samplesPerFrame := asU32 (stream.unsigned "spf" 352)
        channels := format.channels, bitDepth := format.bitDepth
        sampleRate := config.outputSampleRate, maxChannels := config.outputMaxChannels }))
    (w.setActiveAudio (.abort task), some (resp.insert "dataPort" (.integer port)))

/-- Type 96 without a stream key, in builds with video: an RTP session with the mirroring
keys, or with zeros for those that are missing. -/
def realtimeLegacy (w : World) (stream resp : Dictionary) : World × Option Dictionary :=
  let key := w.conn.ekey.getD (List.replicate 16 0)
  let iv := w.conn.eiv.getD (List.replicate 16 0)
  let fmtp := "96 " ++ toString (stream.unsigned "spf" 352) ++ " 0 16 40 10 14 2 255 0 0 " ++
    toString (stream.unsigned "sr" 44100)
  let raopRtp := RaopRtp.new "96 AppleLossless".toList (some fmtp.toList) (some ⟨key, iv⟩)
  let w := w.releaseRtp.setRtp raopRtp
  match raopRtp with
  | none => (w, some resp)
  | some rtp =>
    let (w, started) := startRtp w rtp true
    match started with
    | none => (w, none)
    | some (task, control, _, data) =>
      (w.emit (.audioStarted (.legacyRealtime task (asU16 (stream.unsigned "controlPort" 0)))),
        some ((resp.insert "dataPort" (.integer data)).insert "controlPort" (.integer control)))

/-- Type 96. -/
def setupStreamRealtime (w : World) (stream resp : Dictionary) : World × Option Dictionary :=
  match ((stream.get "shk").bind Plist.asData).bind streamSharedKey with
  | some shk => realtimeKeyed config w stream resp shk
  | none =>
    if config.features.video then realtimeLegacy w stream resp
    else
      (w.emit (.onError (.protocol (.invalidRtsp
        "realtime (type 96) SETUP requires a shared key or the video feature"))), none)

/-- Type 103. -/
def setupStreamBuffered (w : World) (stream resp : Dictionary) : World × Option Dictionary :=
  match streamSharedKey (((stream.get "shk").bind Plist.asData).getD []) with
  | none =>
    (w.emit (.onError (.protocol (.invalidRtsp
      "buffered (type 103) SETUP contains invalid key material"))), none)
  | some shk =>
    let (w, port) := w.bind
    match port with
    | none => (w, none)
    | some port =>
      let (w, task) := w.spawnAudio
      let w := w.emit (.audioStarted (.buffered task shk config.outputSampleRate
        config.outputMaxChannels))
      let w := w.mapConn fun conn => { conn with playoutCmd := some task }
      (w.setActiveAudio (.command task),
        some ((resp.insert "dataPort" (.integer port)).insert "audioBufferSize"
          (.integer 0x100000)))

/-- Type 130: a data channel when the stream has a seed. -/
def setupStreamRc (w : World) (stream resp : Dictionary) : World × Option Dictionary :=
  match (stream.get "seed").bind Plist.asUnsignedInteger with
  | none => (w, some (resp.insert "streamID" (.integer 1)))
  | some _ =>
    let (w, port) := w.bind
    match port with
    | none => (w, none)
    | some port =>
      (w.emit .dataChannelOpened,
        some ((resp.insert "streamID" (.integer 1)).insert "dataPort" (.integer port)))

def sha51216 (parts : List (List UInt8)) : List UInt8 :=
  (env.crypto.sha512.hash parts.flatten).take 16

def deriveEaesKey (fairplayKey ecdhShared : List UInt8) : List UInt8 :=
  sha51216 env [fairplayKey, ecdhShared]

def deriveStreamKeyIv (seed : List UInt8) (streamConnectionId : Nat) : List UInt8 × List UInt8 :=
  (sha51216 env [Utf8.encode ("AirPlayStreamKey" ++ toString streamConnectionId), seed],
    sha51216 env [Utf8.encode ("AirPlayStreamIV" ++ toString streamConnectionId), seed])

/-- The keys of a video stream: from the audio key of this connection or of the last one that
had one, else from the FairPlay key and the pair-verify secret. -/
def videoKeys (w : World) (id : Nat) : Option (List UInt8 × List UInt8) :=
  match w.conn.ekey.or w.shared.videoEkey with
  | some audioKey => some (deriveStreamKeyIv env audioKey id)
  | none =>
    match w.conn.pairVerifySecret, w.shared.videoEkey with
    | some ecdh, some fpKey => some (deriveStreamKeyIv env (deriveEaesKey env fpKey ecdh) id)
    | _, _ => none

def World.videoError (w : World) : World :=
  w.cryptoError (.fairPlay "video stream setup failed")

/-- Type 110. The identifier may be missing, but not negative. -/
def setupStreamVideo (w : World) (stream resp : Dictionary) : World × Option Dictionary :=
  let id := ((stream.get "streamConnectionID").bind Plist.asSignedInteger).getD 0
  if id < 0 then (w.videoError, none)
  else
    match videoKeys env w id.toNat with
    | none => (w.videoError, none)
    | some (key, iv) =>
      let (w, port) := w.bind
      match port with
      | none => (w, none)
      | some port =>
        (if config.hasVideoHandler then w.emit (.videoStarted key iv) else w,
          some (resp.insert "dataPort" (.integer port)))

/-- The receiver of a stream, by its type. Other types are only acknowledged. -/
def setupStream (w : World) (type : Nat) (stream resp : Dictionary) : World × Option Dictionary :=
  if type = 96 then setupStreamRealtime config w stream resp
  else if type = 103 then setupStreamBuffered config w stream resp
  else if type = 130 then setupStreamRc w stream resp
  else if type = 110 ∧ config.features.video then setupStreamVideo env config w stream resp
  else (w, some resp)

/-- `setup_streams`: only the first stream counts. The control port is bound after its
receiver has been started. -/
def setupStreams (w : World) (streams : List Plist) : World × Option Dictionary :=
  match streams.head?.bind Plist.asDictionary with
  | none => (w, none)
  | some stream =>
    match (Dictionary.get stream "type").bind Plist.asUnsignedInteger with
    | none => (w, none)
    | some type =>
      let (w, resp) := setupStream env config w type stream [("type", .integer type)]
      match resp with
      | none => (w, none)
      | some resp =>
        let (w, port) := w.bind
        (w, port.map fun port =>
          [("streams", .array [.dictionary (resp.insert "controlPort" (.integer port))])])

/-- The encrypted audio key of a mirroring session. It is mixed with the shared secret of a
pairing, and kept for the video connection. -/
def captureEkey (w : World) (dict : Dictionary) : World :=
  match (dict.get "ekey").bind Plist.asData with
  | none => w
  | some ekey =>
    if ekey.length ≠ 72 then w
    else
      match w.conn.fairplay.decrypt env ekey with
      | .error e => w.cryptoError e
      | .ok fpKey =>
        let derived := match w.conn.ap2SharedSecret with
          | some secret => sha51216 env [fpKey, secret]
          | none => fpKey
        { w with
          conn := { w.conn with ekey := some derived }
          shared := { w.shared with videoEkey := some derived } }

def captureEiv (w : World) (dict : Dictionary) : World :=
  match (dict.get "eiv").bind Plist.asData with
  | none => w
  | some eiv =>
    if eiv.length ≠ 16 then w
    else
      { w with
        conn := { w.conn with eiv := some eiv }
        shared := { w.shared with videoEiv := some eiv } }

/-- An event channel needs the secret of a pairing. -/
def openEventChannel (w : World) : World :=
  match w.conn.ap2SharedSecret with
  | none => w
  | some secret =>
    match EncryptedChannel.events env.crypto.hkdf secret with
    | .error _ => w
    | .ok _ =>
      (w.emit (.eventChannelOpened (buildUpdateInfoMessage env config w))).mapConn fun conn =>
        { conn with eventSender := true }

def setupRemoteControlOnly (w : World) : World × Option Dictionary :=
  match w.conn.ap2SharedSecret with
  | none => (w, some [("eventPort", .integer 0)])
  | some _ =>
    let (w, port) := w.bind
    match port with
    | none => (w, none)
    | some port => (openEventChannel env config w, some [("eventPort", .integer port)])

/-- Without a pairing, a mirroring session gets a timing socket at once. -/
def openTiming (w : World) (dict : Dictionary) : World × Nat :=
  if config.features.video && !w.conn.isAp2 && w.conn.ekey.isSome then
    let (w, port) := w.bind
    match port with
    | none => (w, 0)
    | some port => (w.emit (.timingStarted (asU16 (dict.unsigned "timingPort" 0))), port)
  else (w, 0)

/-- The address of this side, for clients that keep time with PTP. -/
def timingPeerInfo (w : World) (dict : Dictionary) : Dictionary :=
  if ((dict.get "timingProtocol").bind Plist.asString).getD "None" = "PTP" then
    let ip := ipText w.conn.localAddr
    [("timingPeerInfo", .dictionary [("Addresses", .array [.string ip]), ("ID", .string ip)])]
  else []

/-- `setup_initial`. The event port is bound in any case, but only told to paired clients. -/
def setupInitial (w : World) (dict : Dictionary) : World × Option Dictionary :=
  let w := if config.features.video then captureEiv (captureEkey env w dict) dict else w
  if ((dict.get "isRemoteControlOnly").bind Plist.asBoolean).getD false then
    setupRemoteControlOnly env config w
  else
    let resp := timingPeerInfo w dict
    let (w, port) := w.bind
    match port with
    | none => (w, none)
    | some port =>
      let w := openEventChannel env config w
      let eventPort := if w.conn.ap2SharedSecret.isSome then port else 0
      let (w, timingPort) := openTiming config w dict
      (w, some ((resp.insert "eventPort" (.integer eventPort)).insert "timingPort"
        (.integer timingPort)))

/-- SETUP: by streams or initial; whatever is rejected closes the connection. -/
def handleSetup : Handler := fun w request response =>
  match (request.body.bind env.plistFromBytes).bind Plist.asDictionary with
  | none => .disconnect w response
  | some dict =>
    let (w, resp) := match (Dictionary.get dict "streams").bind Plist.asArray with
      | some streams => setupStreams env config w streams
      | none => setupInitial env config w dict
    match resp with
    | none => .disconnect w response
    | some resp => plistBody env w response resp

end Shairplay.Raop
