import Shairplay.Raop.Handlers.Ap1

/-!
# Handlers of the second protocol version: pairing and capabilities

Messages of both pairings are told apart by their state entry; anything else falls back to
the first protocol version.
-/

namespace Shairplay.Raop

open Lib Proto Crypto

variable (env : Platform) (config : RaopConfig)

namespace Shared

/-- `PairingStore::get`. -/
def get (shared : Shared) (id : String) : Option (List UInt8) := shared.pairingStore.lookup id

/-- `PairingStore::put` replaces an older key. -/
def put (shared : Shared) (id : String) (publicKey : List UInt8) : Shared :=
  { shared with
    pairingStore := (id, publicKey) :: shared.pairingStore.filter fun entry => entry.1 ≠ id }

def hasAnyPairing (shared : Shared) : Bool := !shared.pairingStore.isEmpty

theorem get_put (shared : Shared) (id other : String) (publicKey : List UInt8) :
    (shared.put id publicKey).get other =
      if other = id then some publicKey else shared.get other := by
  by_cases same : other = id
  · subst same
    simp [get, put]
  · rw [if_neg same]
    have different : (other == id) = false := by simpa using same
    simp only [get, put, List.lookup_cons, different]
    induction shared.pairingStore with
    | nil => rfl
    | cons entry store ih =>
      obtain ⟨name, key⟩ := entry
      by_cases mine : name = id
      · subst mine
        simpa [List.lookup_cons, different] using ih
      · rw [List.filter_cons_of_pos (by simpa using mine), List.lookup_cons, List.lookup_cons, ih]

end Shared

/-- The state entry of a pairing message, if it is one. The outer level is whether the
message is a TLV message with a state entry, the inner one whether that entry has a byte. -/
def pairingState (data : List UInt8) : Option (Option UInt8) :=
  match TlvValues.decode data with
  | .ok tlv => (tlv.get 6).map List.head?
  | .error _ => none

/-- M1 starts a session of its own; the old one stays if it fails. The modulus is a constant,
so the session itself can always be made. -/
def pairSetupM1 (w : World) (data : List UInt8) (response : HttpResponse) : Outcome :=
  let srp := SrpServer.new env.crypto.sha512 config.pin w.ambient.srpSalt w.ambient.srpSecret
  match srp.processM1 data with
  | (_, .error e) =>
    { world := w.cryptoError e, response, body := some (pairingErrorResponse 2) }
  | (srp, .ok _) =>
    { world := w.mapConn fun conn => { conn with srpServer := some srp }, response
      body := some srp.buildM2 }

/-- M3 completes a transient pairing. The session keeps what it changed even when the
message is rejected. -/
def pairSetupM3 (w : World) (data : List UInt8) (response : HttpResponse) : Outcome :=
  match w.conn.srpServer with
  | none => .none w response
  | some srp =>
    let (srp, result) := srp.processM3 env.crypto.sha512 data
    let w := w.mapConn fun conn => { conn with srpServer := some srp }
    match result, srp.buildM4 with
    | .ok ok, .ok m4 =>
      let w := if ok && srp.isTransient then
          w.mapConn fun conn => { conn with ap2SharedSecret := srp.sharedSecret, isAp2 := true }
        else w
      { world := w, response, body := some m4 }
    | _, _ => .none w response

/-- M5 stores the controller's key, once the answer is built. -/
def pairSetupM5 (w : World) (data : List UInt8) (response : HttpResponse) : Outcome :=
  match w.conn.srpServer with
  | none => .none w response
  | some srp =>
    match srp.processM5 env.crypto data with
    | .error e =>
      { world := w.cryptoError e, response, body := some (pairingErrorResponse 6) }
    | .ok (clientId, clientPk) =>
      match srp.buildM6 env.crypto config.deviceId config.identitySeed with
      | .error _ => .none w response
      | .ok m6 =>
        { world := { w with shared := w.shared.put clientId clientPk }.emit
            (.storePut clientId clientPk)
          response, body := some m6 }

def handlePairSetup : Handler := fun w request response =>
  match request.body with
  | none => .none w response
  | some data =>
    let response := octetStream response
    match pairingState data with
    | none => handlePairSetupAp1 env config w request response
    | some (some 1) => pairSetupM1 env config w data response
    | some (some 3) => pairSetupM3 env w data response
    | some (some 5) => pairSetupM5 env config w data response
    | some _ => .none w response

/-- M1 replaces the session if it succeeds. -/
def pairVerifyM1 (w : World) (data : List UInt8) (response : HttpResponse) : Outcome :=
  let pv := PairVerifyServer.new env.crypto config.deviceId config.identitySeed
    w.ambient.ephemeralSecret
  match pv.processM1BuildM2 env.crypto data with
  | (pv, .ok m2) =>
    { world := w.mapConn fun conn =>
        { conn with pairVerifySecret := some pv.ecdhSharedSecret, pairVerify := some pv }
      response, body := some m2 }
  | (_, .error e) => .none (w.cryptoError e) response

/-- M3 is checked against the store as it is now. -/
def pairVerifyM3 (w : World) (data : List UInt8) (response : HttpResponse) : Outcome :=
  match w.conn.pairVerify with
  | none => .none w response
  | some pv =>
    let (pv, result) := pv.processM3BuildM4 env.crypto data (some w.shared.get)
    let w := w.mapConn fun conn => { conn with pairVerify := some pv }
    match result with
    | .ok m4 =>
      { world := w.mapConn fun conn =>
          { conn with
            pairVerifySecret := pv.sharedSecret
            ap2SharedSecret := pv.sharedSecret
            isAp2 := true }
        response, body := some m4 }
    | .error e => .none (w.cryptoError e) response

def handlePairVerify : Handler := fun w request response =>
  match request.body with
  | none => .none w response
  | some data =>
    let response := octetStream response
    match pairingState data with
    | none => handlePairVerifyAp1 env config w request response
    | some (some 1) => pairVerifyM1 env config w data response
    | some (some 3) => pairVerifyM3 env w data response
    | some _ => .none w response

def handlePairPinStart : Handler := fun w _ response => .none w (octetStream response)

/-- The features this receiver advertises in one of its builds. -/
inductive AirPlayFeature
  | supportsAirPlayPhoto
  | supportsAirPlayVideoFairPlay
  | supportsAirPlaySlideshow
  | supportsAirPlayVideoVolumeControl
  | supportsAirPlayScreen
  | supportsAirPlayAudio
  | audioRedundant
  | authentication4
  | metadataArtwork
  | metadataProgress
  | metadataNowPlayingDaap
  | audioFormats0
  | audioFormats1
  | audioFormats2
  | audioFormats3
  | audioFormats4
  | hasUnifiedAdvertiserInfo
  | supportsUnifiedMediaControl
  | supportsBufferedAudio
  | supportsPtp
  | supportsHkPairingAndAccessControl
  | supportsTransientPairing
  | supportsCoreUtilsPairingAndEncryption
  deriving DecidableEq

def AirPlayFeature.bit : AirPlayFeature → Nat
  | .supportsAirPlayPhoto => 1
  | .supportsAirPlayVideoFairPlay => 2
  | .supportsAirPlaySlideshow => 5
  | .supportsAirPlayVideoVolumeControl => 6
  | .supportsAirPlayScreen => 7
  | .supportsAirPlayAudio => 9
  | .audioRedundant => 11
  | .authentication4 => 14
  | .metadataArtwork => 15
  | .metadataProgress => 16
  | .metadataNowPlayingDaap => 17
  | .audioFormats0 => 18
  | .audioFormats1 => 19
  | .audioFormats2 => 20
  | .audioFormats3 => 21
  | .audioFormats4 => 22
  | .hasUnifiedAdvertiserInfo => 30
  | .supportsUnifiedMediaControl => 38
  | .supportsBufferedAudio => 40
  | .supportsPtp => 41
  | .supportsHkPairingAndAccessControl => 46
  | .supportsTransientPairing => 47
  | .supportsCoreUtilsPairingAndEncryption => 48

def maskOf (bits : List Nat) : BitVec 64 :=
  bits.foldl (fun mask bit => mask ||| (1#64 <<< bit)) 0#64

def featuresFrom (flags : List AirPlayFeature) : BitVec 64 := maskOf (flags.map AirPlayFeature.bit)

/-- `receiver_features_for_pairing`. Builds with video advertise the legacy protocol, with
five bits that have no name, whether or not there is a PIN. -/
def receiverFeaturesForPairing (features : Features) (requiresPinPairing : Bool) : BitVec 64 :=
  if features.video then
    featuresFrom [.supportsAirPlayPhoto, .supportsAirPlayVideoFairPlay, .supportsAirPlaySlideshow,
      .supportsAirPlayVideoVolumeControl, .supportsAirPlayScreen, .supportsAirPlayAudio,
      .audioRedundant, .authentication4, .metadataArtwork, .metadataProgress,
      .metadataNowPlayingDaap, .audioFormats0, .audioFormats1, .audioFormats2, .audioFormats3,
      .audioFormats4, .hasUnifiedAdvertiserInfo] ||| maskOf [10, 12, 13, 25, 28]
  else
    let mask := featuresFrom [.supportsAirPlayAudio, .audioRedundant, .authentication4,
      .metadataProgress, .audioFormats0, .audioFormats1, .hasUnifiedAdvertiserInfo,
      .supportsUnifiedMediaControl, .supportsBufferedAudio, .supportsPtp,
      .supportsHkPairingAndAccessControl, .supportsCoreUtilsPairingAndEncryption, .audioFormats2,
      .audioFormats4, .supportsTransientPairing]
    if requiresPinPairing then
      mask &&& ~~~(1#64 <<< AirPlayFeature.supportsTransientPairing.bit)
    else mask

example : receiverFeaturesForPairing ⟨true, false, false, false⟩ false = 0x0001C340405D4A00#64 := by
  decide

example : receiverFeaturesForPairing ⟨true, true, false, false⟩ true = 0x527FFEE6#64 := by decide

/-- `ap2_status_flags`: the receiver is attached; with a PIN, whether it has been set up. -/
def ap2StatusFlags (requiresPinPairing alreadyPaired : Bool) : Nat :=
  let flags := 1 <<< 2
  if requiresPinPairing then
    let flags := flags ||| 1 <<< 9
    if alreadyPaired then flags ||| 1 <<< 10 else flags
  else flags

example : ap2StatusFlags true true = 0x604 := by decide

def globalModel : String := "AppleTV2,1"
def ap2Protovers : String := "1.1"
def ap2Srcvers : String := "366.0"

/-- `hwaddr_airplay`: lower-case bytes between colons. -/
def hwaddrAirplay (hwaddr : List UInt8) : String :=
  ":".intercalate (hwaddr.map fun b => String.ofList (Digest.md5ToHex [b]))

/-- `HttpResponse::set_plist_body`. -/
def plistBody (w : World) (response : HttpResponse) (dict : Dictionary) : Outcome :=
  match env.plistToBinary dict with
  | none => .none w response
  | some body =>
    { world := w, response := response.addHeader "Content-Type" "application/x-apple-binary-plist"
      body := some body }

def mirroringDisplay : Dictionary :=
  [("widthPixels", .integer 1920), ("heightPixels", .integer 1080),
    ("uuid", .string "shairplay_display"), ("maxFPS", .integer 60), ("features", .integer 2)]

def handleInfo : Handler := fun w _ response =>
  let hw := hwaddrAirplay config.hwaddr
  let pk := Digest.md5ToHex (env.crypto.ed25519.publicKey config.identitySeed)
  let dict : Dictionary :=
    [("deviceID", .string hw), ("macAddress", .string hw), ("pi", .string config.pairingId),
      ("name", .string config.airplayName),
      ("features", .integer (receiverFeaturesForPairing config.features config.pin.isSome).toInt),
      ("model", .string globalModel), ("protocolVersion", .string ap2Protovers),
      ("sourceVersion", .string ap2Srcvers),
      ("statusFlags", .integer (ap2StatusFlags config.pin.isSome w.shared.hasAnyPairing)),
      ("pk", .string (String.ofList pk))]
  plistBody env w response
    (if config.features.video && config.hasVideoHandler then
      dict.insert "displays" (.array [.dictionary mirroringDisplay])
    else dict)

/-- `build_update_info_message`: the first message on an event channel. -/
def buildUpdateInfoMessage (w : World) : Option (List UInt8) :=
  let value : Dictionary :=
    [("statusFlags", .integer (ap2StatusFlags config.pin.isSome w.shared.hasAnyPairing)),
      ("features", .integer (receiverFeaturesForPairing config.features config.pin.isSome).toInt),
      ("model", .string globalModel), ("sourceVersion", .string ap2Srcvers),
      ("protocolVersion", .string ap2Protovers)]
  match env.plistToBinary [("type", .string "updateInfo"), ("value", .dictionary value)] with
  | none => none
  | some body =>
    some (Utf8.encode ("POST /command RTSP/1.0\r\nContent-Length: " ++ toString body.length ++
      "\r\nContent-Type: application/x-apple-binary-plist\r\nCSeq: 0\r\n\r\n") ++ body)

end Shairplay.Raop
