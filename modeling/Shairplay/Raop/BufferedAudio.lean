import Shairplay.Codec.Alac
import Shairplay.Lib.Machine
import Shairplay.Lib.OrderedMap
import Shairplay.Raop.AudioPipeline
import Shairplay.Raop.BufferedAudio.Payload
import Shairplay.Raop.Handlers

/-!
# Buffered audio

Three threads share the playout state under a lock. The receiver decrypts and decodes
packets and stores the frames by timestamp; the command handler applies what the request
handlers send; the delivery thread takes the frames that are due and plays them after it
has released the lock.

A run is any sequence of what the threads do. Each event is one critical section, or one
call on the session, so the threads interleave as the lock allows. The clock is an input.
The receiver is modelled from the accepted connection on.
-/

namespace Shairplay.Raop.BufferedAudio

open Lib Crypto OrderedMap
open Shairplay.Codec (AacCodec AacDecoder AlacDecoder AudioSsrc StreamResample beWord
  mixdownAndResample)

/-- Output configuration of the server. -/
structure OutputConfig where
  sampleRate : Option Nat
  maxChannels : Option Nat
  deriving DecidableEq

namespace OutputConfig

def targetSampleRate (config : OutputConfig) (ssrc : AudioSsrc) : Nat :=
  config.sampleRate.getD ssrc.sampleRate

/-- The number of channels that a stream is played with. -/
def targetChannels (config : OutputConfig) (ssrc : AudioSsrc) : Nat :=
  (config.maxChannels.map fun limit => min ssrc.channels limit).getD ssrc.channels

def format (config : OutputConfig) (ssrc : AudioSsrc) : AudioFormat where
  channels := config.targetChannels ssrc
  sampleRate := config.targetSampleRate ssrc

end OutputConfig

/-- A decoded frame with the stream format it came in. -/
structure BufferedFrame where
  samples : List Sample
  ssrc : AudioSsrc
  deriving DecidableEq

/-- The frames by RTP timestamp, in the order of `u32`. -/
abbrev FrameMap := Std.TreeMap (BitVec 32) BufferedFrame

structure PlayoutState where
  buffer : FrameMap
  anchorRtp : BitVec 32
  anchorLocalNs : Nat
  rate : Nat
  sampleRate : Nat
  channels : Nat
  stopped : Bool
  formatChanged : Bool
  flushPending : Bool

namespace PlayoutState

def start (config : OutputConfig) : PlayoutState where
  buffer := ∅
  anchorRtp := 0
  anchorLocalNs := 0
  rate := 0
  sampleRate := config.sampleRate.getD 44100
  channels := 2
  stopped := false
  formatChanged := false
  flushPending := false

/-- Playing starts 100 ms before the earliest frame, if there is one. -/
def resumeAnchor (s : PlayoutState) (anchorRtp : BitVec 32) : BitVec 32 :=
  match s.buffer.keys.head? with
  | some firstTs => firstTs - BitVec.ofNat 32 (s.sampleRate / 10)
  | none => anchorRtp

/-- Timestamps before the anchor. -/
def stale (s : PlayoutState) : List (BitVec 32) :=
  s.buffer.keys.filter fun ts => 0 < (s.anchorRtp - ts).toInt

/-- Timestamps from `fromSeq` to `untilSeq`. -/
def flushed (s : PlayoutState) (fromSeq untilSeq : Nat) : List (BitVec 32) :=
  s.buffer.keys.filter fun ts => fromSeq ≤ ts.toNat ∧ ts.toNat ≤ untilSeq

/-- `apply_playout_command`; the flag says whether the command handler goes on. -/
def applyPlayoutCommand (s : PlayoutState) (nowNs : Nat) : PlayoutCommand → PlayoutState × Bool
  | .setRate anchorRtp _ rate =>
    if rate = 0 then ({ s with anchorRtp := BitVec.ofNat 32 anchorRtp, rate := 0 }, true)
    else
      let s := { s with
        anchorRtp := s.resumeAnchor (BitVec.ofNat 32 anchorRtp), rate, anchorLocalNs := nowNs }
      ({ s with buffer := eraseAll s.buffer s.stale }, true)
  | .flush fromSeq untilSeq =>
    ({ s with buffer := eraseAll s.buffer (s.flushed fromSeq untilSeq), flushPending := true },
      true)
  | .stop => ({ s with stopped := true, buffer := ∅ }, false)

/-- A new format, for the delivery thread to see. -/
def announce (s : PlayoutState) (format : AudioFormat) : PlayoutState :=
  { s with sampleRate := format.sampleRate, channels := format.channels, formatChanged := true }

/-- The receive loop has ended. -/
def close (s : PlayoutState) : PlayoutState := { s with stopped := true, buffer := ∅ }

def format (s : PlayoutState) : AudioFormat where
  channels := s.channels
  sampleRate := s.sampleRate

def waits (s : PlayoutState) : Bool :=
  !s.stopped && !s.flushPending && (s.rate == 0 || s.buffer.isEmpty)

/-- The timestamp that is due now. -/
def targetRtp (s : PlayoutState) (nowNs : Nat) : BitVec 32 :=
  s.anchorRtp + BitVec.ofNat 32 ((nowNs - s.anchorLocalNs) * s.sampleRate / 1000000000)

/-- The frames that are due. -/
def ready (s : PlayoutState) (nowNs : Nat) : List (BitVec 32 × BufferedFrame) :=
  s.buffer.toList.filter fun entry => 0 ≤ (s.targetRtp nowNs - entry.1).toInt

end PlayoutState

inductive BufferedDecoder (κ : Type)
  | aac (decoder : AacDecoder κ)
  | alac (decoder : AlacDecoder)

def alacDecoderInfo (sampleRate bitDepth channels : Nat) : List UInt8 :=
  decoderInfo (if 48000 ≤ sampleRate then 480 else 352) bitDepth channels sampleRate

def makeDecoder (κ : Type) [AacCodec κ] (ssrc : AudioSsrc) (srcSr srcCh : Nat) :
    Option (BufferedDecoder κ) :=
  if ssrc.isAlac then
    let bitDepth := ssrc.bitDepth.getD 16
    let dec := AlacDecoder.new (BitVec.ofNat 32 bitDepth) (BitVec.ofNat 32 srcCh)
    some (.alac (dec.setInfo (alacDecoderInfo srcSr bitDepth srcCh)))
  else (AacDecoder.new srcSr srcCh).toOption.map .aac

def BufferedDecoder.decode {κ : Type} [AacCodec κ] (ssrc : AudioSsrc) (plaintext : List UInt8) :
    BufferedDecoder κ → BufferedDecoder κ × Option (List Sample)
  | .aac dec =>
    let payload := (probeAacCandidates κ plaintext ssrc.sampleRate ssrc.channels).getD
      (selectAacPayload plaintext)
    let decoded := dec.decode payload
    (.aac decoded.1, decoded.2.toOption)
  | .alac dec =>
    let decoded := dec.decodeFrameF32 plaintext
    (.alac decoded.1, decoded.2)

/-- The variables of the receive loop. -/
structure Receiver (κ ρ : Type) where
  decoder : Option (BufferedDecoder κ)
  currentSsrc : AudioSsrc
  streamResampler : Option ρ
  sourceChannels : Nat
  outputChannels : Nat

/-- What the threads do to the outside, and the packets whose frames were stored. -/
inductive Action
  | onError (error : ShairplayError)
  | stored (timestamp : BitVec 32) (packet : List UInt8)
  | audioInit (format : AudioFormat)
  | audioFlush
  | audioProcess (timestamp : BitVec 32) (frame : BufferedFrame)
  deriving DecidableEq

def timestampOf (packet : List UInt8) : BitVec 32 := beWord packet 4

def ssrcOf (packet : List UInt8) : AudioSsrc := AudioSsrc.fromU32 (beWord packet 8)

namespace Receiver

variable {κ ρ : Type} [AacCodec κ] [StreamResample ρ]

/-- The loop before its first packet. -/
def start : Receiver κ ρ where
  decoder := none
  currentSsrc := .none
  streamResampler := none
  sourceChannels := 2
  outputChannels := 2

/-- A packet whose header names another format. -/
def changesFormat (r : Receiver κ ρ) (packet : List UInt8) : Bool :=
  ssrcOf packet != .none && ssrcOf packet != r.currentSsrc

/-- Set up for a new format. -/
def adopt (config : OutputConfig) (ssrc : AudioSsrc) : Receiver κ ρ where
  decoder := makeDecoder κ ssrc ssrc.sampleRate ssrc.channels
  currentSsrc := ssrc
  streamResampler := StreamResample.new ssrc.sampleRate (config.targetSampleRate ssrc)
    (config.targetChannels ssrc)
  sourceChannels := ssrc.channels
  outputChannels := config.targetChannels ssrc

def decoderError (ssrc : AudioSsrc) : ShairplayError :=
  .unsupportedFormat ("decoder init failed (ssrc=" ++ ssrc.debug ++ ", sample_rate=" ++
    toString ssrc.sampleRate ++ ", channels=" ++ toString ssrc.channels ++ ")")

/-- Decode a plaintext and bring the samples to the output format. -/
def produce (r : Receiver κ ρ) (plaintext : List UInt8) : Receiver κ ρ × Option BufferedFrame :=
  match r.decoder with
  | none => (r, none)
  | some decoder =>
    match decoder.decode r.currentSsrc plaintext with
    | (decoder, none) => ({ r with decoder := some decoder }, none)
    | (decoder, some samples) =>
      let (streamResampler, samples) :=
        mixdownAndResample samples r.sourceChannels r.outputChannels r.streamResampler
      ({ r with decoder := some decoder, streamResampler }, some { samples, ssrc := r.currentSsrc })

end Receiver

/-- What a delivery iteration has taken: the rate it saw, whether it flushes, and the frames
it still has to play. -/
structure Batch where
  rate : Nat
  flush : Bool
  ready : List (BitVec 32 × BufferedFrame)

/-- Where the delivery thread is. -/
inductive Delivery
  | locking
  | playing (batch : Batch)
  | ended

/-- The rate that the critical section of the current iteration saw. -/
def Delivery.observedRate : Delivery → Option Nat
  | .playing batch => some batch.rate
  | _ => none

structure Engine (κ ρ : Type) where
  playout : PlayoutState
  /-- Commands that were sent and not applied yet. -/
  commands : List PlayoutCommand
  /-- The command handler is running. -/
  handling : Bool
  receiver : Receiver κ ρ
  /-- The receive loop is running. -/
  receiving : Bool
  /-- A packet whose header the receive loop has looked at. -/
  incoming : Option (List UInt8)
  /-- The open session, by the format it was told. -/
  session : Option AudioFormat
  delivery : Delivery

inductive Event
  /-- A request handler sends a command. -/
  | send (command : PlayoutCommand)
  /-- The command handler applies the next command. -/
  | command (nowNs : Nat)
  /-- The receive loop reads a packet and looks at its header. -/
  | packet (packet : List UInt8)
  /-- The receive loop decodes this packet. -/
  | payload
  /-- The connection ends, or a length field is below two. -/
  | closed
  /-- The delivery thread has the lock. -/
  | deliver (nowNs : Nat)
  /-- The delivery thread makes its next call. -/
  | play

namespace Engine

variable {κ ρ : Type}

/-- The engine when the sender has connected. -/
def start (config : OutputConfig) : Engine κ ρ where
  playout := .start config
  commands := []
  handling := true
  receiver := .start
  receiving := true
  incoming := none
  session := none
  delivery := .locking

/-- The command handler ends with the first stop. -/
def command (e : Engine κ ρ) (nowNs : Nat) : Engine κ ρ :=
  match e.handling, e.commands with
  | true, command :: rest =>
    let applied := e.playout.applyPlayoutCommand nowNs command
    { e with playout := applied.1, commands := rest, handling := applied.2 }
  | _, _ => e

/-- The receive loop is about to read. -/
def reads (e : Engine κ ρ) : Bool := e.receiving && e.incoming.isNone

/-- The receive loop ends where it reads. -/
def closed (e : Engine κ ρ) : Engine κ ρ :=
  if e.reads then { e with receiving := false, playout := e.playout.close } else e

section Receive

variable [AacCodec κ] [StreamResample ρ]

/-- Set up for a new format and announce it. -/
def changeFormat (config : OutputConfig) (e : Engine κ ρ) (ssrc : AudioSsrc) :
    Engine κ ρ × List Action :=
  let receiver : Receiver κ ρ := .adopt config ssrc
  ({ e with receiver, playout := e.playout.announce (config.format ssrc) },
    if receiver.decoder.isNone then [.onError (Receiver.decoderError ssrc)] else [])

/-- The head of an iteration of the receive loop. A packet that is too short is skipped. The
format is looked at before the packet is authenticated. -/
def packet (config : OutputConfig) (e : Engine κ ρ) (packet : List UInt8) :
    Engine κ ρ × List Action :=
  if !e.reads then (e, [])
  else if packet.length ≤ rtpHeaderLen + nonceTrailLen then (e, [])
  else if e.receiver.changesFormat packet then
    let changed := e.changeFormat config (ssrcOf packet)
    ({ changed.1 with incoming := some packet }, changed.2)
  else ({ e with incoming := some packet }, [])

/-- The rest of the iteration. -/
def payload (aead : Aead) (key : List UInt8) (e : Engine κ ρ) : Engine κ ρ × List Action :=
  match e.incoming with
  | none => (e, [])
  | some packet =>
    let e := { e with incoming := none }
    match decryptRtpChacha aead key packet with
    | none => (e, [])
    | some plaintext =>
      match e.receiver.produce plaintext with
      | (receiver, none) => ({ e with receiver }, [])
      | (receiver, some frame) =>
        let timestamp := timestampOf packet
        ({ e with
            receiver
            playout := { e.playout with buffer := e.playout.buffer.insert timestamp frame } },
          [.stored timestamp packet])

end Receive

/-- Open a session, the first one or one for a new format. -/
def openSession (e : Engine κ ρ) : Engine κ ρ × List Action :=
  if e.session.isNone ∨ e.playout.formatChanged then
    ({ e with
        session := some e.playout.format
        playout := { e.playout with formatChanged := false } },
      [.audioInit e.playout.format])
  else (e, [])

def takeReady (e : Engine κ ρ) (nowNs : Nat) : Engine κ ρ :=
  let s := e.playout
  let ready := s.ready nowNs
  { e with
    playout := { s with flushPending := false, buffer := eraseAll s.buffer (ready.map Prod.fst) }
    delivery := .playing { rate := s.rate, flush := s.flushPending, ready } }

/-- The critical section of a delivery iteration. A thread that waits changes nothing. -/
def deliver (e : Engine κ ρ) (nowNs : Nat) : Engine κ ρ × List Action :=
  match e.delivery with
  | .locking =>
    if e.playout.waits then (e, [])
    else if e.playout.stopped then ({ e with delivery := .ended }, [])
    else
      let opened := e.openSession
      (opened.1.takeReady nowNs, opened.2)
  | _ => (e, [])

/-- The next call of a delivery iteration, outside of the lock. -/
def play (e : Engine κ ρ) : Engine κ ρ × List Action :=
  match e.delivery, e.session with
  | .playing batch, some _ =>
    if batch.flush then
      ({ e with delivery := .playing { batch with flush := false } }, [.audioFlush])
    else
      match batch.ready with
      | [] => ({ e with delivery := .locking }, [])
      | (timestamp, frame) :: rest =>
        ({ e with delivery := .playing { batch with ready := rest } },
          [.audioProcess timestamp frame])
  | .playing _, none => ({ e with delivery := .locking }, [])
  | _, _ => (e, [])

variable [AacCodec κ] [StreamResample ρ] (config : OutputConfig) (aead : Aead) (key : List UInt8)

def step (e : Engine κ ρ) : Event → Engine κ ρ × List Action
  | .send command => ({ e with commands := e.commands ++ [command] }, [])
  | .command nowNs => (e.command nowNs, [])
  | .packet packet => e.packet config packet
  | .payload => e.payload aead key
  | .closed => (e.closed, [])
  | .deliver nowNs => e.deliver nowNs
  | .play => e.play

def run (events : List Event) : Engine κ ρ × List Action :=
  Machine.run (step config aead key) (start config) events

end Engine

end Shairplay.Raop.BufferedAudio
