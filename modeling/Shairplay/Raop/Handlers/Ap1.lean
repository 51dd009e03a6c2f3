import Shairplay.Raop.Handlers

/-!
# Handlers of the first protocol version

Pairing by one signature exchange, FairPlay, the announcement of a session and its RTP
receiver, and parameters that go straight to the application.
-/

namespace Shairplay.Raop

open Lib Proto Crypto

variable (env : Platform) (config : RaopConfig)

/-- Nothing to return. -/
def Outcome.none (world : World) (response : HttpResponse) : Outcome := { world, response }

/-- Close the connection after the response. -/
def Outcome.disconnect (world : World) (response : HttpResponse) : Outcome :=
  { world, response := response.setDisconnect true }

def octetStream (response : HttpResponse) : HttpResponse :=
  response.addHeader "Content-Type" "application/octet-stream"

namespace PairingSession

/-- `derive_key_internal` for lengths up to 64. -/
def deriveKey (s : PairingSession) (salt : String) (length : Nat) : List UInt8 :=
  (env.crypto.sha512.hash (Utf8.encode salt ++ s.ecdhSecret)).take length

/-- Encrypt with the session's keystream, from its start. -/
def aes (s : PairingSession) (data : List UInt8) : List UInt8 :=
  env.aesCtr (s.deriveKey env "Pair-Verify-AES-Key" 16) (s.deriveKey env "Pair-Verify-AES-IV" 16)
    data

/-- `handshake`; it is started once. -/
def handshake (s : PairingSession) (secret ecdhKey edKey : List UInt8) : PairingSession :=
  if s.status ≠ .initial then s
  else
    { status := .handshake, edTheirs := edKey, ecdhOurs := env.crypto.x25519.publicKey secret
      ecdhTheirs := ecdhKey, ecdhSecret := env.crypto.x25519.diffieHellman secret ecdhKey }

def getPublicKey (s : PairingSession) : Except CryptoError (List UInt8) :=
  if s.status ≠ .handshake then handshakeError "not in handshake state" else .ok s.ecdhOurs

/-- The encrypted signature over both keys. -/
def getSignature (seed : List UInt8) (s : PairingSession) : Except CryptoError (List UInt8) :=
  if s.status ≠ .handshake then handshakeError "not in handshake state"
  else .ok (s.aes env (env.crypto.ed25519.sign seed (s.ecdhOurs ++ s.ecdhTheirs)))

/-- Verify the peer's signature. It is encrypted behind 64 bytes of keystream. -/
def finish (s : PairingSession) (signature : List UInt8) :
    PairingSession × Except CryptoError Unit :=
  if s.status ≠ .handshake then (s, handshakeError "not in handshake state")
  else
    let decrypted := (s.aes env (List.replicate 64 0 ++ signature)).drop 64
    if !env.crypto.ed25519.validKey s.edTheirs then (s, .error .pairingVerify)
    else if !env.crypto.ed25519.verify s.edTheirs (s.ecdhTheirs ++ s.ecdhOurs) decrypted then
      (s, .error .pairingVerify)
    else ({ s with status := .finished }, .ok ())

end PairingSession

def World.cryptoError (w : World) (e : CryptoError) : World := w.emit (.onError (.crypto e))

/-- Pair-setup: the public key of the server. -/
def handlePairSetupAp1 : Handler := fun w request response =>
  match request.body with
  | none => .none w response
  | some data =>
    if data.length ≠ 32 then .none w response
    else
      { world := w, response := octetStream response
        body := some (env.crypto.ed25519.publicKey config.pairingSeed) }

/-- Pair-verify, first message. The outcome of the handshake itself is not looked at. -/
def pairVerifyAp1Start (w : World) (data : List UInt8) (response : HttpResponse) : Outcome :=
  if data.length ≠ 68 then .none w response
  else
    let pairing := w.conn.pairing.handshake env w.ambient.ephemeralSecret
      ((data.drop 4).take 32) ((data.drop 36).take 32)
    let w := w.mapConn fun conn => { conn with pairing }
    match pairing.getPublicKey, pairing.getSignature env config.pairingSeed with
    | .ok publicKey, .ok signature =>
      { world := w, response := octetStream response, body := some (publicKey ++ signature) }
    | _, _ => .none w response

def pairVerifyAp1Finish (w : World) (data : List UInt8) (response : HttpResponse) : Outcome :=
  if data.length ≠ 68 then .none w response
  else
    let (pairing, result) := w.conn.pairing.finish env (data.drop 4)
    let w := w.mapConn fun conn => { conn with pairing }
    match result with
    | .ok _ => .none w response
    | .error e => .disconnect (w.cryptoError e) response

def handlePairVerifyAp1 : Handler := fun w request response =>
  match request.body with
  | none => .none w response
  | some data =>
    if data.length < 4 then .none w response
    else
      match data.head? with
      | some 1 => pairVerifyAp1Start env config w data response
      | some 0 => pairVerifyAp1Finish env w data response
      | _ => .none w response

namespace FairPlay

/-- `setup`: the reply for a mode; an earlier key message is forgotten. -/
def setup (fp : FairPlay) (request : List UInt8) : FairPlay × Except CryptoError (List UInt8) :=
  if request.getD 4 0 ≠ 3 then (fp, .error (.fairPlay "unsupported version"))
  else if 4 ≤ (request.getD 14 0).toNat then (fp, .error (.fairPlay "invalid mode"))
  else ({ fp with keymsglen := 0 }, .ok (env.fairplayReply (request.getD 14 0).toNat))

def header : List UInt8 :=
  [0x46, 0x50, 0x4c, 0x59, 0x03, 0x01, 0x04, 0x00, 0x00, 0x00, 0x00, 0x14]

/-- `handshake`: keep the key message. -/
def handshake (fp : FairPlay) (request : List UInt8) : FairPlay × Except CryptoError (List UInt8) :=
  if request.getD 4 0 ≠ 3 then (fp, .error (.fairPlay "unsupported version"))
  else if 4 ≤ (request.getD 12 0).toNat then (fp, .error (.fairPlay "invalid mode"))
  else ({ keymsg := request, keymsglen := 164 }, .ok (header ++ (request.drop 144).take 20))

def decrypt (fp : FairPlay) (input : List UInt8) : Except CryptoError (List UInt8) :=
  if fp.keymsglen ≠ 164 then .error (.fairPlay "handshake not complete")
  else .ok (env.playfairDecrypt fp.keymsg input)

end FairPlay

/-- Take over the FairPlay state and answer, or report the error. -/
def fairplayOutcome (w : World) (response : HttpResponse)
    (result : FairPlay × Except CryptoError (List UInt8)) : Outcome :=
  let w := w.mapConn fun conn => { conn with fairplay := result.1 }
  match result.2 with
  | .ok reply => { world := w, response, body := some reply }
  | .error e => .none (w.cryptoError e) response

def handleFpSetup : Handler := fun w request response =>
  match request.body with
  | none => .none w response
  | some data =>
    if data.length = 16 then fairplayOutcome w response (w.conn.fairplay.setup env data)
    else if data.length = 164 then fairplayOutcome w response (w.conn.fairplay.handshake data)
    else .none w response

def handleOptions : Handler := fun w _ response =>
  .none w (response.addHeader "Public"
    (if config.features.ap2 then
      "ANNOUNCE, SETUP, RECORD, PAUSE, FLUSH, FLUSHBUFFERED, TEARDOWN, OPTIONS, POST, GET, PUT"
    else
      "ANNOUNCE, SETUP, RECORD, PAUSE, FLUSH, TEARDOWN, OPTIONS, GET_PARAMETER, SET_PARAMETER"))

/-- Whether an audio format is supported. -/
def codecSupported (rtpmap fmtp : String) : Bool :=
  match parseCodec rtpmap with
  | some (.pcm _) => true
  | some .alac => (parseFmtp fmtp).isSome
  | none => false

/-- `RaopRtp::new`. -/
def RaopRtp.new (rtpmap : List Char) (fmtp : Option (List Char)) (encryption : Option AesSession) :
    Option RaopRtp :=
  if codecSupported (String.ofList rtpmap) (String.ofList (fmtp.getD [])) then
    some { rtpmap, fmtp, encryption }
  else none

/-- A session is made exactly for the formats for which its packet buffer can be built. -/
theorem isSome_new_iff {δ : Type} [AlacDecode δ] (rtpmap : List Char) (fmtp : Option (List Char))
    (encryption : Option AesSession) :
    (RaopRtp.new rtpmap fmtp encryption).isSome =
      (RaopBuffer.build (String.ofList rtpmap) (String.ofList (fmtp.getD [])) encryption :
        Option (RaopBuffer δ)).isSome := by
  cases codec : parseCodec (String.ofList rtpmap) with
  | none => simp [RaopRtp.new, codecSupported, RaopBuffer.build, RaopBuffer.buildCodec, codec]
  | some kind =>
    cases kind with
    | pcm pcm =>
      simp [RaopRtp.new, codecSupported, RaopBuffer.build, RaopBuffer.buildCodec, codec]
    | alac =>
      cases format : parseFmtp (String.ofList (fmtp.getD [])) with
      | none =>
        simp [RaopRtp.new, codecSupported, RaopBuffer.build, RaopBuffer.buildCodec, codec, format]
      | some alac =>
        simp [RaopRtp.new, codecSupported, RaopBuffer.build, RaopBuffer.buildCodec, codec, format]

/-- The key of an announced session, by RSA or by FairPlay. Errors are reported. -/
def announcedKey (w : World) (sdp : Sdp) : World × Option (List UInt8) :=
  match sdp.rsaaeskey, sdp.fpaeskey with
  | some rsa, _ =>
    match env.rsaDecrypt rsa with
    | .ok key => (w, some key)
    | .error e => (w.cryptoError e, none)
  | none, some fp =>
    match env.base64Decode fp with
    | .error e => (w.cryptoError e, none)
    | .ok data =>
      if data.length ≠ 72 then (w, none)
      else
        match w.conn.fairplay.decrypt env data with
        | .ok key => (w, some key)
        | .error e => (w.cryptoError e, none)
  | none, none => (w, none)

def announcedIv (sdp : Sdp) : Option (List UInt8) :=
  match sdp.aesiv with
  | none => none
  | some iv => (env.base64Decode iv).toOption.filter fun iv => 16 ≤ iv.length

def World.setRtp (w : World) (raopRtp : Option RaopRtp) : World :=
  w.mapConn fun conn => { conn with raopRtp }

/-- Number a new audio receiver. -/
def World.spawnAudio (w : World) : World × Nat :=
  ({ w with shared := { w.shared with nextTask := w.shared.nextTask + 1 } }, w.shared.nextTask)

/-- Let go of the shutdown channel, which ends its receiver. -/
def World.releaseRtp (w : World) : World :=
  match w.conn.raopRtp.bind RaopRtp.shutdownTx with
  | some task => w.emit (.rtpShutdown task)
  | none => w

/-- Replace the RTP session; an unsupported format is reported and closes the connection. -/
def announceSession (w : World) (response : HttpResponse) (rtpmap : List Char)
    (fmtp : Option (List Char)) (encryption : Option AesSession) : Outcome :=
  let raopRtp := RaopRtp.new rtpmap fmtp encryption
  let w := w.releaseRtp.setRtp raopRtp
  if raopRtp.isNone then
    .disconnect (w.emit (.onError (.unsupportedFormat ("ANNOUNCE rtpmap=" ++
      String.ofList rtpmap ++ " fmtp=" ++ String.ofList (fmtp.getD "<missing>".toList))))) response
  else .none w response

/-- A session that negotiated a key is never taken without one. -/
def handleAnnounce : Handler := fun w request response =>
  match request.body.bind Utf8.fromUtf8 with
  | none => .none w response
  | some text =>
    let sdp := Sdp.parse text.toList
    match sdp.connection, sdp.rtpmap with
    | some _, some rtpmap =>
      if sdp.rsaaeskey.isSome && sdp.fpaeskey.isSome then .disconnect w response
      else
        let encryptionExpected := sdp.rsaaeskey.isSome || sdp.fpaeskey.isSome
        if !encryptionExpected && sdp.aesiv.isSome then .disconnect w response
        else if !encryptionExpected then announceSession w response rtpmap sdp.fmtp none
        else
          let (w, key) := announcedKey env w sdp
          match key.filter fun key => 16 ≤ key.length with
          | none => .disconnect w response
          | some key =>
            match announcedIv env sdp with
            | none => .disconnect w response
            | some iv =>
              announceSession w response rtpmap sdp.fmtp
                (some { key := key.take 16, iv := iv.take 16 })
    | _, _ => .none w response

def stripStart (start text : List Char) : Option (List Char) :=
  if start.isPrefixOf text then some (text.drop start.length) else none

/-- Three sockets for UDP, one for TCP. The ports are those of control, timing and data. -/
def bindRtp (w : World) (useUdp : Bool) : World × Option (Nat × Nat × Nat) :=
  if useUdp then
    let (w, control) := w.bind
    match control with
    | none => (w, none)
    | some control =>
      let (w, timing) := w.bind
      match timing with
      | none => (w, none)
      | some timing =>
        let (w, data) := w.bind
        (w, data.map fun data => (control, timing, data))
  else
    let (w, data) := w.bind
    (w, data.map fun data => (0, 0, data))

/-- `RaopRtp::start`: with the number of the receiver. The shutdown channel is replaced before
any socket is opened, so that the receiver started before ends in any case. -/
def startRtp (w : World) (rtp : RaopRtp) (useUdp : Bool) : World × Option (Nat × Nat × Nat × Nat) :=
  let (w, task) := w.releaseRtp.spawnAudio
  let (w, ports) := bindRtp (w.setRtp (some { rtp with shutdownTx := some task })) useUdp
  (w, ports.map fun ports => (task, ports))

/-- The `Transport` header of the answer. -/
def transportResponse (useUdp : Bool) (control timing data : Nat) : String :=
  if useUdp then
    "RTP/AVP/UDP;unicast;mode=record;timing_port=" ++ toString timing ++ ";events;control_port=" ++
      toString control ++ ";server_port=" ++ toString data
  else "RTP/AVP/TCP;unicast;interleaved=0-1;mode=record;server_port=" ++ toString data

/-- The ports of the peer for control and timing; a number that cannot be read counts as zero. -/
def remotePorts (transport : List Char) : Nat × Nat :=
  (transport.splitOn ';').foldl
    (fun ports part =>
      match stripStart "control_port=".toList part, stripStart "timing_port=".toList part with
      | some value, _ => ((Str.parseUnsigned 65536 value).getD 0, ports.2)
      | none, some value => (ports.1, (Str.parseUnsigned 65536 value).getD 0)
      | none, none => ports)
    (0, 0)

example : remotePorts "RTP/AVP/UDP;unicast;control_port=6001;timing_port=6002".toList =
    (6001, 6002) := by decide +kernel

/-- Remote control is offered when both of its headers are there. -/
def offerRemoteControl (w : World) (request : Request) : World :=
  match request.header "DACP-ID", request.header "Active-Remote" with
  | some dacpId, some activeRemote => w.emit (.onRemoteControl dacpId activeRemote)
  | _, _ => w

/-- SETUP: start the receiver of the announced session. -/
def handleSetupAp1 : Handler := fun w request response =>
  match request.header "Transport" with
  | none => .none w response
  | some transport =>
    let w := offerRemoteControl w request
    let useUdp := !("RTP/AVP/TCP".toList.isPrefixOf transport.toList)
    let remote := if useUdp then remotePorts transport.toList else (0, 0)
    match w.conn.raopRtp with
    | none => .disconnect w response
    | some rtp =>
      let (w, started) := startRtp w rtp useUdp
      match started with
      | none => .none (w.emit (.onError .network)) response
      | some (task, control, timing, data) =>
        .none (w.emit (.rtpStarted task useUdp remote.1 remote.2))
          ((response.addHeader "Transport"
            (transportResponse useUdp control timing data)).addHeader "Session" "DEADBEEF")

/-- RECORD, in both protocol versions. -/
def handleRecord : Handler := fun w _ response => .none w (response.addHeader "Audio-Latency" "0")

def handleGetParameter : Handler := fun w request response =>
  match request.header "Content-Type", request.body.bind Utf8.fromUtf8 with
  | some contentType, some text =>
    if contentType = "text/parameters" ∧ "volume".toList <:+: text.toList then
      { world := w, response := response.addHeader "Content-Type" "text/parameters"
        body := some (Utf8.encode "volume: 0.000000\r\n") }
    else .none w response
  | _, _ => .none w response

/-- A text parameter: the volume, or the progress as three numbers. -/
def textParameter (w : World) (text : List Char) : World :=
  match stripStart "volume: ".toList text with
  | some rest =>
    match env.parseFloat (Str.trim rest) with
    | some volume => w.emit (.onVolume volume)
    | none => w
  | none =>
    match stripStart "progress: ".toList text with
    | none => w
    | some rest =>
      match (Str.trim rest).splitOn '/' with
      | [start, current, finish] =>
        match Str.parseUnsigned 4294967296 start, Str.parseUnsigned 4294967296 current,
          Str.parseUnsigned 4294967296 finish with
        | some start, some current, some finish => w.emit (.onProgress start current finish)
        | _, _, _ => w
      | _ => w

def handleSetParameter : Handler := fun w request response =>
  match request.header "Content-Type", request.body with
  | some contentType, some data =>
    if contentType = "text/parameters" then
      match Utf8.fromUtf8 data with
      | some text => .none (textParameter env w text.toList) response
      | none => .none w response
    else if contentType = "image/jpeg" ∨ contentType = "image/png" then
      .none (w.emit (.onCoverart data)) response
    else if contentType = "application/x-dmap-tagged" then
      .none (w.emit (.onMetadata data)) response
    else .none w response
  | _, _ => .none w response

/-- `str::parse` for `i32`, of which only values from zero on are used. -/
def parseSequence (s : List Char) : Option Nat :=
  match s with
  | '-' :: rest =>
    match rest with
    | '+' :: _ => none
    | _ => (Str.parseUnsigned 2147483649 rest).filter (· = 0)
  | _ => Str.parseUnsigned 2147483648 s

/-- `parse_rtp_info_seq`: the first parameter named `seq` decides. Its name is not trimmed. -/
def parseRtpInfoSeq (rtpInfo : List Char) : Option Nat :=
  let tokens := (rtpInfo.splitOnP fun c => c == ',' || c == ';').map Str.trim
  let pairs := tokens.filterMap (Str.splitOnce (· == '='))
  match pairs.find? fun pair => Str.eqIgnoreAsciiCase pair.1 "seq".toList with
  | some (_, value) => parseSequence (Str.trim value)
  | none => none

/-- FLUSH is handled while its route is resolved. -/
def handleFlushInline (w : World) (request : Request) : World :=
  match request.header "RTP-Info", w.conn.raopRtp with
  | some rtpInfo, some _ =>
    match parseRtpInfoSeq rtpInfo.toList with
    | some nextSeq => w.emit (.rtpFlushed nextSeq)
    | none => w
  | _, _ => w

/-- The RTP session is taken and stopped, if there is one. -/
def World.stopRtp (w : World) : World :=
  match w.conn.raopRtp with
  | some _ => (w.releaseRtp.setRtp none).emit .rtpStopped
  | none => w

/-- TEARDOWN stops what was started and closes the connection. -/
def handleTeardown : Handler := fun w _ response =>
  let response := response.addHeader "Connection" "close"
  let w := w.stopRtp
  match w.conn.playoutCmd with
  | some task =>
    .disconnect (if config.features.ap2 then w.emit (.playoutCommand task .stop) else w) response
  | none => .disconnect w response

example : parseRtpInfoSeq "rtptime=4242; seq=987;foo=bar".toList = some 987 := by decide +kernel

example : parseRtpInfoSeq "seq=-1".toList = none := by decide +kernel

end Shairplay.Raop
