import Shairplay.Raop.Handlers.Setup

/-!
# Control requests

Playout commands and volume of the second protocol version, the player of HTTP live streams,
and the acknowledgement of one fixed probe.
-/

namespace Shairplay.Raop

open Lib Proto Crypto

variable (env : Platform) (config : RaopConfig)

def requestPlist (request : Request) : Option Plist := request.body.bind env.plistFromBytes

/-- Send a command to the buffered receiver of this connection. -/
def World.playout (w : World) (command : PlayoutCommand) : World :=
  match w.conn.playoutCmd with
  | some task => w.emit (.playoutCommand task command)
  | none => w

/-- Seconds and a binary fraction of a second in nanoseconds, saturating at 64 bits. -/
def anchorTimeNs (netSecs netFrac : Nat) : Nat :=
  let fracNs := ((netFrac >>> 32) * 1000000000) >>> 32
  min (min (netSecs * 1000000000) 18446744073709551615 + fracNs) 18446744073709551615

def handleSetRateAnchorTime : Handler := fun w request response =>
  match (requestPlist env request).bind Plist.asDictionary with
  | none => .none w response
  | some entries =>
    let dict : Dictionary := entries
    .none (w.playout (.setRate (asU32 (dict.unsigned "rtpTime" 0))
      (anchorTimeNs (dict.unsigned "networkTimeSecs" 0) (dict.unsigned "networkTimeFrac" 0))
      (asU32 (dict.unsigned "rate" 0)))) response

/-- SETPEERS only logs. -/
def handleSetPeers : Handler := fun w _ response => .none w response

/-- Entries that are missing count as zero, also when the list is no dictionary. -/
def handleFlushBuffered : Handler := fun w request response =>
  match requestPlist env request with
  | none => .none w response
  | some plist =>
    let dict : Dictionary := plist.asDictionary.getD []
    .none (w.playout (.flush (asU32 (dict.unsigned "flushFromSeq" 0))
      (asU32 (dict.unsigned "flushUntilSeq" 0)))) response

/-- The second protocol version answers RECORD as the first one does. -/
def handleRecordAp2 : Handler := handleRecord

/-- `to_ascii_lowercase().contains(..)`. -/
def mentions (word : String) (text : String) : Bool :=
  decide (word.toList <:+: text.toList.map Char.toLower)

/-- A number of a property list; the inner level is missing when it is not finite. -/
def plistNumber (value : Plist) : Option (Option ℚ) :=
  (value.asReal.or (value.asSignedInteger.map fun v => some (v : ℚ))).or
    (value.asUnsignedInteger.map fun v => some (v : ℚ))

/-- Capability descriptors are not live volume values. -/
def volumeKeyCandidate (key : String) : Bool := mentions "volume" key && !mentions "capab" key

def volumeContainers : List String :=
  ["params", "value", "args", "arguments", "command", "commandParams"]

mutual

/-- `find_volume_scalar`: an entry of this dictionary, else one of its containers, or the
first item of an array that has one. -/
def findVolumeScalar : Plist → Option (Option ℚ)
  | .dictionary entries =>
    let scalars := volumeScalars entries
    (entries.findSome? fun entry =>
      if volumeKeyCandidate entry.1 then plistNumber entry.2 else none).or
    (volumeContainers.findSome? fun key => (scalars.lookup key).join)
  | .array items => findVolumeItem items
  | _ => none

/-- What each entry of a dictionary yields. -/
def volumeScalars : List (String × Plist) → List (String × Option (Option ℚ))
  | [] => []
  | entry :: rest => volumeScalar entry :: volumeScalars rest

def volumeScalar : String × Plist → String × Option (Option ℚ)
  | (key, value) => (key, findVolumeScalar value)

def findVolumeItem : List Plist → Option (Option ℚ)
  | [] => none
  | item :: rest => (findVolumeScalar item).or (findVolumeItem rest)

end

def commandMentionsVolume (dict : Dictionary) : Bool :=
  let isVolume := fun (value : Option Plist) =>
    ((value.bind Plist.asString).map (mentions "volume")).getD false
  isVolume (dict.get "type") ||
    isVolume (((dict.get "params").bind Plist.asDictionary).bind fun params =>
      Dictionary.get params "command")

def decibels (linear : ℚ) : ℚ :=
  if linear ≤ 0 then -144 else max (-144) (min 0 (20 * env.log10 linear))

/-- `ap2_command_volume_db`: values up to zero are decibels already, then come shares of one
and percentages. -/
def ap2CommandVolumeDb (dict : Dictionary) : Option ℚ :=
  let cmdType := Str.toAsciiLowercase (((dict.get "type").bind Plist.asString).getD "unknown")
  if cmdType = "updatemrsupportedcommands" then none
  else if !commandMentionsVolume dict &&
      (cmdType = "unknown" || "update".toList.isPrefixOf cmdType.toList) then none
  else
    match findVolumeScalar (.dictionary dict) with
    | none => none
    | some none => none
    | some (some scalar) =>
      if -144 ≤ scalar ∧ scalar ≤ 0 then some scalar
      else if 0 ≤ scalar ∧ scalar ≤ 1 then some (decibels env scalar)
      else if 0 ≤ scalar ∧ scalar ≤ 100 then some (decibels env (scalar / 100))
      else none

def handleCommand : Handler := fun w request response =>
  match ((requestPlist env request).bind Plist.asDictionary).bind (ap2CommandVolumeDb env) with
  | some volume => .none (w.emit (.onVolume (some volume))) response
  | none => .none w response

/-- `/audioMode` only logs. -/
def handleAudioMode : Handler := fun w _ response => .none w response

/-- `/feedback` describes the stream while there is a buffered one. -/
def handleFeedback : Handler := fun w _ response =>
  match w.conn.playoutCmd with
  | none => .none w response
  | some _ =>
    plistBody env w response
      [("streams", .array [.dictionary [("type", .integer 103), ("sr", .real (some 44100))]])]

/-- A property list in text form. -/
def xmlBody (w : World) (response : HttpResponse) (dict : Dictionary) : Outcome :=
  match env.plistToXml dict with
  | none => .none w response
  | some body =>
    { world := w, response := response.addHeader "Content-Type" "text/x-apple-plist+xml"
      body := some body }

def handleServerInfo : Handler := fun w _ response =>
  let mac := ":".intercalate (config.hwaddr.map fun b =>
    String.ofList ((Digest.md5ToHex [b]).map Char.toUpper))
  xmlBody env w response
    [("features", .integer 0x27F), ("macAddress", .string mac), ("model", .string globalModel),
      ("osBuildVersion", .string "12B435"), ("protovers", .string "1.0"),
      ("srcvers", .string ap2Srcvers), ("vv", .integer 2), ("deviceid", .string mac)]

def World.stopHls (w : World) : World := if w.conn.hlsSession then w.emit .hlsStop else w

/-- `/play`: the new session is started before the old one is stopped. -/
def handlePlay : Handler := fun w request response =>
  match (requestPlist env request).bind Plist.asDictionary with
  | none => .none w response
  | some entries =>
    let dict : Dictionary := entries
    match (dict.get "Content-Location").bind Plist.asString with
    | none => .none w response
    | some url =>
      if !config.hasHlsHandler then .none w response
      else
        let start := ((dict.get "Start-Position").bind Plist.asReal).getD (some 0)
        let w := (w.emit (.hlsPlay url start)).stopHls
        .none (w.mapConn fun conn =>
          { conn with hlsSession := true, hlsSessionId := request.header "X-Apple-Session-ID" })
          response

def handlePlaybackInfo : Handler := fun w _ response =>
  if !w.conn.hlsSession then .none w response
  else
    let status := w.ambient.hlsStatus
    let loaded := max (status.duration - status.position) 0
    xmlBody env w response
      [("duration", .real (some status.duration)), ("position", .real (some status.position)),
        ("rate", .real (some status.rate)),
        ("readyToPlay", .integer (if status.ready then 1 else 0)),
        ("playbackBufferEmpty", .integer 0), ("playbackBufferFull", .integer 1),
        ("playbackLikelyToKeepUp", .integer 1),
        ("loadedTimeRanges", .array [.dictionary [("start", .real (some status.position)),
          ("duration", .real (some loaded))]]),
        ("seekableTimeRanges", .array [.dictionary [("start", .real (some 0)),
          ("duration", .real (some status.duration))]])]

/-- `parse_query_float`: the first parameter with this name decides; it has to be finite. -/
def parseQueryFloat (url : String) (key : String) : Option ℚ :=
  match (url.toList.splitOn '?').drop 1 with
  | [] => none
  | query :: _ =>
    let pairs := (query.splitOn '&').filterMap (Str.splitOnce (· == '='))
    match pairs.find? fun pair => pair.1 == key.toList with
    | some (_, value) => (env.parseFloat value).join
    | none => none

/-- Tell the running playback a number of the query. -/
def hlsNumber (key : String) (effect : ℚ → Effect) : Handler := fun w request response =>
  match request.url.bind fun url => parseQueryFloat env url key with
  | some value => .none (if w.conn.hlsSession then w.emit (effect value) else w) response
  | none => .none w response

def handleScrub : Handler := hlsNumber env "position" .hlsSeek

def handleRate : Handler := hlsNumber env "value" .hlsSetRate

def handleStop : Handler := fun w _ response =>
  .none (w.stopHls.mapConn fun conn => { conn with hlsSession := false, hlsSessionId := none })
    response

def serverHeaderValue : String := "AirTunes/105.1"

/-- `new_response` of the dispatcher. -/
def newResponse (code : UInt16) (message cseq : String) : HttpResponse :=
  ((HttpResponse.new "RTSP/1.0" code message).addHeader "CSeq" cseq).addHeader "Server"
    serverHeaderValue

def pipewireProbe : List UInt8 :=
  [0x01, 0x59, 0x02, 0xed, 0xe9, 0x0d, 0x4e, 0xf2, 0xbd, 0x4c, 0xb6, 0x8a, 0x63, 0x30, 0x03, 0x82,
    0x07, 0xa9, 0x4d, 0xbd, 0x50, 0xd8, 0xaa, 0x46, 0x5b, 0x5d, 0x8c, 0x01, 0x2a, 0x0c, 0x7e, 0x1d,
    0x4e]

/-- Spaces and tabs around a value do not count. -/
def hasExpectedContentType (request : Request) : Bool :=
  match request.header "content-type" with
  | none => false
  | some value =>
    let blank := fun c : Char => c == ' ' || c == '\t'
    Str.eqIgnoreAsciiCase ((value.toList.dropWhile blank).rdropWhile blank)
      "application/octet-stream".toList

/-- The body policy of the probe: exactly its length. -/
def authSetupBodyPolicy (request : Request) : Except ProtocolError Nat :=
  if (request.header "content-length").bind
      (fun value => Str.parseUnsigned 18446744073709551616 value.toList) = some 33 then .ok 33
  else .error (.invalidRtsp "invalid PipeWire probe length")

def handleAuthSetup : Handler := fun w request response =>
  let response :=
    if hasExpectedContentType request && request.body = some pipewireProbe then response
    else
      ((newResponse 400 "Bad Request" ((request.header "CSeq").getD "0")).addHeader "Connection"
        "close").setDisconnect true
  .none w (response.addHeader "Content-Length" "0")

end Shairplay.Raop
