import Shairplay.Codec.Alac
import Shairplay.Raop.AudioPipeline
import Shairplay.Raop.Handlers

/-!
# Realtime audio

The receiver of a realtime stream takes one packet at a time from a socket and plays it at
once. Decoder, resampler and session are set up with the first packet that is long enough.
-/

namespace Shairplay.Raop.RealtimeAudio

open Crypto
open Shairplay.Codec (AlacDecoder StreamResample mixdownAndResample)

/-- Values that make no sense are replaced by defaults. -/
def normalizeOutputConfig (config : OutputConfig) : OutputConfig where
  sourceSampleRate := if config.sourceSampleRate = 0 then 44100 else config.sourceSampleRate
  samplesPerFrame := if config.samplesPerFrame = 0 then 352 else config.samplesPerFrame
  channels := if config.channels = 0 then 2 else config.channels
  bitDepth := if config.bitDepth = 0 then 16 else config.bitDepth
  sampleRate := config.sampleRate.filter (0 < ·)
  maxChannels := config.maxChannels.filter (0 < ·)

def alacDecoderInfo (config : OutputConfig) : List UInt8 :=
  decoderInfo config.samplesPerFrame config.bitDepth config.channels config.sourceSampleRate

def targetSampleRate (config : OutputConfig) : Nat :=
  config.sampleRate.getD config.sourceSampleRate

/-- The number of channels that the stream is played with. -/
def targetChannels (config : OutputConfig) : Nat :=
  (config.maxChannels.map fun limit => min config.channels limit).getD config.channels

/-- The variables of the loop. -/
structure Receiver (ρ : Type) where
  decoder : Option AlacDecoder
  resampler : Option ρ
  /-- The open session, by the format it was told. -/
  session : Option AudioFormat
  srcSr : Nat
  srcCh : Nat
  outCh : Nat
  ended : Bool

/-- What the loop does to the outside. -/
inductive Action
  | onError (error : ShairplayError)
  | audioInit (format : AudioFormat)
  | audioProcess (samples : List Sample)
  deriving DecidableEq

/-- What the loop receives. -/
inductive Input
  | datagram (bytes : List UInt8)
  | recvError

/-- The size of the receive buffer; the rest of a longer datagram is lost. -/
def bufLen : Nat := 4096

namespace Receiver

variable {ρ : Type}

/-- The loop before its first packet. -/
def start : Receiver ρ where
  decoder := none
  resampler := none
  session := none
  srcSr := 44100
  srcCh := 2
  outCh := 2
  ended := false

def leave (r : Receiver ρ) : Receiver ρ := { r with session := none, ended := true }

variable [StreamResample ρ]

/-- Set up with the first packet. -/
def openSession (config : OutputConfig) (r : Receiver ρ) : Receiver ρ × List Action :=
  if r.session.isSome then (r, [])
  else
    let alac := AlacDecoder.new (BitVec.ofNat 32 config.bitDepth) (BitVec.ofNat 32 config.channels)
    let format : AudioFormat :=
      { channels := targetChannels config, sampleRate := targetSampleRate config }
    ({ r with
        decoder := some (alac.setInfo (alacDecoderInfo config))
        resampler :=
          if targetSampleRate config ≠ config.sourceSampleRate then
            StreamResample.new config.sourceSampleRate (targetSampleRate config)
              (targetChannels config)
          else r.resampler
        session := some format
        srcSr := config.sourceSampleRate
        srcCh := config.channels
        outCh := targetChannels config },
      [.audioInit format])

def play (r : Receiver ρ) (alacData : List UInt8) : Receiver ρ × List Action :=
  match r.decoder with
  | none => (r, [])
  | some decoder =>
    match decoder.decodeFrameF32 alacData with
    | (decoder, none) => ({ r with decoder := some decoder }, [])
    | (decoder, some samples) =>
      let (resampler, samples) := mixdownAndResample samples r.srcCh r.outCh r.resampler
      ({ r with decoder := some decoder, resampler },
        if r.session.isSome then [.audioProcess samples] else [])

/-- An iteration of the loop, with a packet. -/
def receive (config : OutputConfig) (aead : Aead) (key : List UInt8) (r : Receiver ρ)
    (packet : List UInt8) : Receiver ρ × List Action :=
  if packet.length ≤ rtpHeaderLen + nonceTrailLen then (r, [])
  else
    let opened := r.openSession config
    match decryptRtpChacha aead key packet with
    | none => opened
    | some alacData =>
      let played := opened.1.play alacData
      (played.1, opened.2 ++ played.2)

/-- An iteration of the loop. An empty datagram ends it, as an error does. -/
def step (config : OutputConfig) (aead : Aead) (key : List UInt8) (r : Receiver ρ) :
    Input → Receiver ρ × List Action
  | .datagram bytes =>
    if r.ended then (r, [])
    else if bytes = [] then (r.leave, [])
    else r.receive (normalizeOutputConfig config) aead key (bytes.take bufLen)
  | .recvError => if r.ended then (r, []) else (r.leave, [.onError .network])

end Receiver

end Shairplay.Raop.RealtimeAudio
