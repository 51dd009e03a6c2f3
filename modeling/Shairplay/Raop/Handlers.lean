import Shairplay.Crypto.PairingHomekit
import Shairplay.Proto.Digest
import Shairplay.Proto.Http
import Shairplay.Proto.Sdp
import Shairplay.Raop.Buffer

/-!
# State of an RTSP connection

A handler reads a request, changes the connection and the state shared by all connections,
and may return a body. What it asks of the application and the receivers it starts are
recorded as effects in the order in which they happen.

Random values and the ports the system hands out are inputs of each request.
-/

namespace Shairplay.Raop

open Lib Proto Crypto

/-- A property list value. -/
inductive Plist
  | dictionary (entries : List (String × Plist))
  | array (items : List Plist)
  | string (value : String)
  | data (value : List UInt8)
  | integer (value : Int)
  | boolean (value : Bool)
  /-- Without a value when the number is not finite. -/
  | real (value : Option ℚ)

namespace Plist

def asDictionary : Plist → Option (List (String × Plist))
  | .dictionary entries => some entries
  | _ => none

def asArray : Plist → Option (List Plist)
  | .array items => some items
  | _ => none

def asString : Plist → Option String
  | .string value => some value
  | _ => none

def asData : Plist → Option (List UInt8)
  | .data value => some value
  | _ => none

def asBoolean : Plist → Option Bool
  | .boolean value => some value
  | _ => none

def asReal : Plist → Option (Option ℚ)
  | .real value => some value
  | _ => none

/-- Integers that fit in 64 bits without a sign. -/
def asUnsignedInteger : Plist → Option Nat
  | .integer value =>
    if 0 ≤ value ∧ value < 18446744073709551616 then some value.toNat else none
  | _ => none

/-- Integers that fit in 64 bits with a sign. -/
def asSignedInteger : Plist → Option Int
  | .integer value =>
    if -9223372036854775808 ≤ value ∧ value < 9223372036854775808 then some value else none
  | _ => none

end Plist

abbrev Dictionary := List (String × Plist)

namespace Dictionary

def get (dict : Dictionary) (key : String) : Option Plist := dict.lookup key

/-- A new key goes to the end; the value of a known one is replaced where it stands. -/
def insert (dict : Dictionary) (key : String) (value : Plist) : Dictionary :=
  match dict with
  | [] => [(key, value)]
  | (name, old) :: rest =>
    if name = key then (key, value) :: rest else (name, old) :: insert rest key value

def unsigned (dict : Dictionary) (key : String) (default : Nat) : Nat :=
  ((dict.get key).bind Plist.asUnsignedInteger).getD default

end Dictionary

/-- Optional parts of the build. -/
structure Features where
  ap2 : Bool
  video : Bool
  hls : Bool
  pipewireAuthSetupCompat : Bool
  deriving DecidableEq

/-- The third-party functions the handlers call. -/
structure Platform where
  crypto : CryptoLib
  md5 : Digest.Md5
  plistFromBytes : List UInt8 → Option Plist
  plistToBinary : Dictionary → Option (List UInt8)
  plistToXml : Dictionary → Option (List UInt8)
  /-- Sign a challenge for an address and a hardware address. -/
  signChallenge : String → List UInt8 → List UInt8 → Option String
  rsaDecrypt : List Char → Except CryptoError (List UInt8)
  base64Decode : List Char → Except CryptoError (List UInt8)
  /-- The keystream cipher of the first pairing protocol: key, counter block, data. -/
  aesCtr : List UInt8 → List UInt8 → List UInt8 → List UInt8
  /-- The inner level is missing for numbers that are not finite, which parse as well. -/
  parseFloat : List Char → Option (Option ℚ)
  log10 : ℚ → ℚ
  /-- The fixed replies of the FairPlay handshake, by mode. -/
  fairplayReply : Nat → List UInt8
  /-- The FairPlay key cipher: key message and encrypted key. -/
  playfairDecrypt : List UInt8 → List UInt8 → List UInt8

/-- Configuration shared by all connections; it does not change while the server runs. -/
structure RaopConfig where
  features : Features
  hwaddr : List UInt8
  password : String
  pipewireAuthSetupCompat : Bool
  identitySeed : List UInt8
  pairingSeed : List UInt8
  pin : Option String
  deviceId : String
  pairingId : String
  airplayName : String
  outputSampleRate : Option Nat
  outputMaxChannels : Option Nat
  hasVideoHandler : Bool
  hasHlsHandler : Bool

/-- What the player of the application says about its state. -/
structure HlsStatus where
  duration : ℚ := 0
  position : ℚ := 0
  rate : ℚ := 0
  ready : Bool := true

/-- What one request draws from its surroundings: random values, and the ports of the sockets
it opens, in order. A missing port is a socket that could not be opened. -/
structure Ambient where
  srpSalt : List UInt8 := []
  srpSecret : List UInt8 := []
  ephemeralSecret : List UInt8 := []
  ports : List Nat := []
  hlsStatus : HlsStatus := {}

/-- Progress of the first pairing protocol. -/
inductive PairingStatus
  | initial
  | handshake
  | finished
  deriving DecidableEq

structure PairingSession where
  status : PairingStatus := .initial
  edTheirs : List UInt8 := List.replicate 32 0
  ecdhOurs : List UInt8 := List.replicate 32 0
  ecdhTheirs : List UInt8 := List.replicate 32 0
  ecdhSecret : List UInt8 := List.replicate 32 0
  deriving DecidableEq

structure FairPlay where
  keymsg : List UInt8 := List.replicate 164 0
  keymsglen : Nat := 0
  deriving DecidableEq

/-- The parts of an RTP session that requests decide. -/
structure RaopRtp where
  rtpmap : List Char
  fmtp : Option (List Char)
  encryption : Option AesSession
  /-- The shutdown channel of the last start. Its receiver ends when it is told to, and when
  this end is dropped. -/
  shutdownTx : Option Nat := none
  deriving DecidableEq

/-- State of one connection. -/
structure RaopConnection where
  raopRtp : Option RaopRtp := none
  fairplay : FairPlay := {}
  pairing : PairingSession := {}
  localAddr : List UInt8
  nonce : String
  srpServer : Option SrpServer := none
  pairVerify : Option PairVerifyServer := none
  ap2SharedSecret : Option (List UInt8) := none
  pairVerifySecret : Option (List UInt8) := none
  isAp2 : Bool := false
  /-- The buffered receiver that takes playout commands. -/
  playoutCmd : Option Nat := none
  eventSender : Bool := false
  ekey : Option (List UInt8) := none
  eiv : Option (List UInt8) := none
  hlsSession : Bool := false
  hlsSessionId : Option String := none
  deriving DecidableEq

/-- How to stop an audio receiver: end its task, or send it a command. -/
inductive StopHandle
  | abort (task : Nat)
  | command (task : Nat)
  deriving DecidableEq

/-- State shared by all connections. -/
structure Shared where
  pairingStore : List (String × List UInt8) := []
  videoEkey : Option (List UInt8) := none
  videoEiv : Option (List UInt8) := none
  /-- Stops the audio session started last. -/
  activeAudio : Option StopHandle := none
  /-- Number of the next audio receiver or shutdown channel. -/
  nextTask : Nat := 0
  deriving DecidableEq

/-- Formats of a realtime stream and of the output it feeds. -/
structure OutputConfig where
  sourceSampleRate : Nat
  samplesPerFrame : Nat
  channels : Nat
  bitDepth : Nat
  sampleRate : Option Nat
  maxChannels : Option Nat
  deriving DecidableEq

/-- The receiver of an audio stream of the second protocol version. -/
inductive AudioStream
  /-- Type 96 with a stream key. -/
  | realtime (task : Nat) (key : List UInt8) (output : OutputConfig)
  /-- Type 96 without one, in builds with video. -/
  | legacyRealtime (task controlPort : Nat)
  /-- Type 103. -/
  | buffered (task : Nat) (key : List UInt8) (sampleRate maxChannels : Option Nat)
  deriving DecidableEq

/-- Commands to a buffered receiver. -/
inductive PlayoutCommand
  | setRate (anchorRtp anchorTimeNs rate : Nat)
  | flush (fromSeq untilSeq : Nat)
  | stop
  deriving DecidableEq

/-- Errors reported to the application. -/
inductive ShairplayError
  | crypto (error : CryptoError)
  | protocol (error : ProtocolError)
  | unsupportedFormat (message : String)
  /-- A socket could not be opened. -/
  | network
  deriving DecidableEq

/-- What a handler asks of its surroundings. -/
inductive Effect
  | onError (error : ShairplayError)
  | onRemoteControl (dacpId activeRemote : String)
  | onVolume (volume : Option ℚ)
  | onProgress (start current finish : Nat)
  | onCoverart (image : List UInt8)
  | onMetadata (dmap : List UInt8)
  /-- With the ports of the peer for control and timing. -/
  | rtpStarted (task : Nat) (useUdp : Bool) (controlPort timingPort : Nat)
  /-- The receiver behind a shutdown channel is told to end. -/
  | rtpShutdown (task : Nat)
  | rtpStopped
  | rtpFlushed (nextSeq : Nat)
  | storePut (id : String) (publicKey : List UInt8)
  | audioStarted (stream : AudioStream)
  | audioAborted (task : Nat)
  | playoutCommand (task : Nat) (command : PlayoutCommand)
  /-- The channel's first message, if it could be built. -/
  | eventChannelOpened (message : Option (List UInt8))
  | dataChannelOpened
  | timingStarted (remotePort : Nat)
  | videoStarted (key iv : List UInt8)
  | hlsPlay (url : String) (startPosition : Option ℚ)
  | hlsSeek (position : ℚ)
  | hlsSetRate (rate : ℚ)
  | hlsStop
  deriving DecidableEq

/-- The state a handler works on. -/
structure World where
  conn : RaopConnection
  shared : Shared
  ambient : Ambient
  effects : List Effect := []

namespace World

def emit (w : World) (effect : Effect) : World := { w with effects := w.effects ++ [effect] }

/-- Open a socket. -/
def bind (w : World) : World × Option Nat :=
  match w.ambient.ports with
  | [] => (w, none)
  | port :: ports => ({ w with ambient := { w.ambient with ports } }, some port)

def mapConn (w : World) (f : RaopConnection → RaopConnection) : World := { w with conn := f w.conn }

@[simp] theorem bind_conn (w : World) : w.bind.1.conn = w.conn := by
  unfold bind
  split <;> rfl

@[simp] theorem bind_shared (w : World) : w.bind.1.shared = w.shared := by
  unfold bind
  split <;> rfl

@[simp] theorem bind_effects (w : World) : w.bind.1.effects = w.effects := by
  unfold bind
  split <;> rfl

end World

/-- The outcome of a handler. -/
structure Outcome where
  world : World
  response : HttpResponse
  body : Option (List UInt8) := none

/-- All handlers share this type. -/
abbrev Handler := World → Request → HttpResponse → Outcome

end Shairplay.Raop
