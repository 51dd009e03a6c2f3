import Mathlib.Data.BitVec
import Mathlib.Data.Rat.Defs
import Shairplay.Lib.Str

/-!
# The RTP packet buffer of classic AirPlay

Incoming packets are decrypted and decoded on arrival and stored by sequence number
in a ring of 32 slots. The consumer takes frames in order; a missing frame is either
waited for or replaced by silence.

Two parts come from outside this file and are parameters here: the CBC decryption
of the `aes` and `cbc` crates, and the ALAC decoder, whose `decode_frame` may also
panic. Samples are the rational values of the `f32`s the code stores; dividing a
16-bit integer by 32768 is exact in `f32`.
-/

namespace Shairplay.Raop

open Lib

/-- Maximum RTP packet size, with the header of 12 bytes. -/
def raopPacketLen : Nat := 32768

/-- Slots of the ring. -/
def raopBufferLength : Nat := 32

/-- Samples per channel of a silent PCM frame before the first packet. -/
def pcmDefaultFrameSamples : Nat := 352

/-- AES-128 key and initial vector of an encrypted session. -/
structure AesSession where
  key : List UInt8
  iv : List UInt8
  deriving DecidableEq

/-- The ALAC parameters of an SDP `fmtp` attribute. -/
structure AlacConfig where
  frameLength : UInt32
  compatibleVersion : UInt8
  bitDepth : UInt8
  pb : UInt8
  mb : UInt8
  kb : UInt8
  numChannels : UInt8
  maxRun : UInt16
  maxFrameBytes : UInt32
  avgBitRate : UInt32
  sampleRate : UInt32
  deriving DecidableEq, Repr

/-- The parameters of an `L16` stream. -/
structure PcmConfig where
  numChannels : UInt8
  sampleRate : UInt32
  deriving DecidableEq, Repr

/-- What the RTP layer announces about the stream. -/
structure StreamFormat where
  numChannels : UInt8
  sampleRate : UInt32
  deriving DecidableEq, Repr

/-- The interface of the ALAC decoder that the buffer uses. `decodeFrame` gets the
input and the output slice, and returns the decoder, the slice it wrote, and the
number of bytes, or `none` where the call panicked. -/
class AlacDecode (δ : Type) where
  new : (sampleSize numChannels : UInt8) → δ
  setInfo : δ → List UInt8 → δ
  decodeFrame : δ → List UInt8 → List UInt8 → δ × List UInt8 × Option Nat

/-- The negotiated codec with its decoder state. -/
inductive Codec (δ : Type)
  | alac (config : AlacConfig) (decoder : δ)
  | pcm (config : PcmConfig)

/-- The codec an `rtpmap` names. -/
inductive CodecConfig
  | alac
  | pcm (config : PcmConfig)
  deriving DecidableEq, Repr

abbrev Sample := ℚ

/-- A slot of the ring. -/
structure BufferEntry where
  available : Bool
  flags : UInt8
  entryType : UInt8
  seqnum : BitVec 16
  timestamp : BitVec 32
  ssrc : BitVec 32
  audioBuffer : List Sample
  audioBufferLen : Nat
  deriving DecidableEq

/-- A slot without a frame; the samples stay but are no longer counted. -/
def BufferEntry.clear (e : BufferEntry) : BufferEntry :=
  { e with available := false, audioBufferLen := 0 }

/-- Wrapping comparison of two RTP sequence numbers, read as an `i16`. -/
def seqnumCmp (s1 s2 : BitVec 16) : Int := (s1 - s2).toInt

/-- Parse the `fmtp` attribute. Numbers are read as `u32` and cut to their field. -/
def parseFmtp (fmtp : String) : Option AlacConfig := do
  let vals := fmtp.toList.splitOn ' '
  if vals.length < 12 then none
  let p := fun i => (Str.parseUnsigned (2 ^ 32) (vals.getD i [])).map UInt32.ofNat
  let config : AlacConfig :=
    { frameLength := ← p 1
      compatibleVersion := (← p 2).toUInt8
      bitDepth := (← p 3).toUInt8
      pb := (← p 4).toUInt8
      mb := (← p 5).toUInt8
      kb := (← p 6).toUInt8
      numChannels := (← p 7).toUInt8
      maxRun := (← p 8).toUInt16
      maxFrameBytes := ← p 9
      avgBitRate := ← p 10
      sampleRate := ← p 11 }
  if config.frameLength = 0 ∨ config.numChannels = 0 ∨ config.bitDepth = 0 ∨
      config.sampleRate = 0 then none
  else some config

/-- Parse an `L16/<rate>[/<channels>]` encoding. -/
def parseL16 (encoding : List Char) : Option PcmConfig := do
  let parts := encoding.splitOn '/'
  if !Str.eqIgnoreAsciiCase (← parts[0]?) "L16".toList then none
  let sampleRate ← Str.parseUnsigned (2 ^ 32) (← parts[1]?)
  let numChannels ← match parts[2]? with
    | some ch => Str.parseUnsigned (2 ^ 8) ch
    | none => some 1
  if parts[3]?.isSome ∨ sampleRate = 0 ∨ numChannels = 0 then none
  else some { numChannels := UInt8.ofNat numChannels, sampleRate := UInt32.ofNat sampleRate }

/-- Parse an `rtpmap` value, `<payload type> <encoding>`. -/
def parseCodec (rtpmap : String) : Option CodecConfig := do
  let fields := Str.splitWhitespace rtpmap.toList
  let _ ← Str.parseUnsigned (2 ^ 8) (← fields[0]?)
  let encoding ← fields[1]?
  if fields[2]?.isSome then none
  let name ← (encoding.splitOn '/')[0]?
  if Str.eqIgnoreAsciiCase name "AppleLossless".toList then some .alac
  else (parseL16 encoding).map .pcm

/-- Big-endian bytes of a `u32`. -/
def beBytes32 (n : UInt32) : List UInt8 :=
  [(n >>> 24).toUInt8, (n >>> 16).toUInt8, (n >>> 8).toUInt8, n.toUInt8]

/-- The decoder info block of 48 bytes. -/
def buildDecoderInfo (config : AlacConfig) : List UInt8 :=
  List.replicate 24 (0 : UInt8) ++ beBytes32 config.frameLength ++
    [config.compatibleVersion, config.bitDepth, config.pb, config.mb, config.kb,
      config.numChannels, (config.maxRun >>> 8).toUInt8, config.maxRun.toUInt8] ++
    beBytes32 config.maxFrameBytes ++ beBytes32 config.avgBitRate ++ beBytes32 config.sampleRate

/-- State of the packet buffer. -/
structure RaopBuffer (δ : Type) where
  aes : Option AesSession
  codec : Codec δ
  isEmpty : Bool
  firstSeqnum : BitVec 16
  lastSeqnum : BitVec 16
  entries : Vector BufferEntry raopBufferLength
  frameCapacity : Nat
  silenceSamples : Nat

namespace RaopBuffer

variable {δ : Type}

/-- The codec of the SDP attributes, the samples a slot holds and the samples of a
silent frame. -/
def buildCodec [AlacDecode δ] (rtpmap fmtp : String) : Option (Codec δ × Nat × Nat) := do
  match ← parseCodec rtpmap with
  | .pcm config =>
    some (.pcm config, (raopPacketLen - 12) / 2, pcmDefaultFrameSamples * config.numChannels.toNat)
  | .alac =>
    let config ← parseFmtp fmtp
    let frameSamples := config.frameLength.toNat * config.numChannels.toNat
    let decoder := AlacDecode.setInfo
      (AlacDecode.new config.bitDepth config.numChannels : δ) (buildDecoderInfo config)
    some (.alac config decoder, frameSamples, frameSamples)

/-- A buffer in which nothing has arrived. -/
def fresh (aes : Option AesSession) (codec : Codec δ) (frameCapacity silenceSamples : Nat) :
    RaopBuffer δ :=
  { aes, codec
    isEmpty := true
    firstSeqnum := 0
    lastSeqnum := 0
    entries := Vector.replicate raopBufferLength
      { available := false, flags := 0, entryType := 0, seqnum := 0, timestamp := 0, ssrc := 0,
        audioBuffer := List.replicate frameCapacity 0, audioBufferLen := 0 }
    frameCapacity, silenceSamples }

/-- Build an empty buffer from the SDP attributes. -/
def build [AlacDecode δ] (rtpmap fmtp : String) (aes : Option AesSession) :
    Option (RaopBuffer δ) := do
  let (codec, frameCapacity, silenceSamples) ← buildCodec rtpmap fmtp
  some (fresh aes codec frameCapacity silenceSamples)

def format (b : RaopBuffer δ) : StreamFormat :=
  match b.codec with
  | .alac config _ => ⟨config.numChannels, config.sampleRate⟩
  | .pcm config => ⟨config.numChannels, config.sampleRate⟩

/-- Drop every queued frame. A next sequence number in the `u16` range becomes the
expected one; any other value empties the buffer fully. -/
def flush (b : RaopBuffer δ) (nextSeq : Int) : RaopBuffer δ :=
  let entries := b.entries.map BufferEntry.clear
  if ¬ (0 ≤ nextSeq ∧ nextSeq ≤ 0xffff) then { b with entries, isEmpty := true }
  else
    { b with entries, firstSeqnum := BitVec.ofInt 16 nextSeq,
             lastSeqnum := BitVec.ofInt 16 nextSeq - 1 }

/-- Index of the slot a sequence number uses. -/
def slot (seqnum : BitVec 16) : Fin raopBufferLength :=
  ⟨seqnum.toNat % raopBufferLength, Nat.mod_lt _ (by decide)⟩

/-- Read one slot. -/
def entryAt (b : RaopBuffer δ) (idx : Fin raopBufferLength) : BufferEntry := b.entries[idx]

/-- Replace one slot. -/
def setEntry (b : RaopBuffer δ) (idx : Fin raopBufferLength) (e : BufferEntry) : RaopBuffer δ :=
  { b with entries := b.entries.set idx e }

/-- The sequence number under which a packet is stored. -/
def packetSeqnum (b : RaopBuffer δ) (data : List UInt8) (useSeqnum : Bool) : BitVec 16 :=
  if useSeqnum then
    ((data.getD 2 0).toBitVec.setWidth 16 <<< 8) ||| (data.getD 3 0).toBitVec.setWidth 16
  else if b.isEmpty then b.firstSeqnum
  else b.lastSeqnum + 1

/-- The packet lies before the current window. -/
def isStale (b : RaopBuffer δ) (seqnum : BitVec 16) : Bool :=
  !b.isEmpty && seqnumCmp seqnum b.firstSeqnum < 0

/-- The packet lies so far ahead that the buffer resynchronises to it. -/
def isFarAhead (b : RaopBuffer δ) (seqnum : BitVec 16) : Bool :=
  0 ≤ seqnumCmp seqnum (b.firstSeqnum + BitVec.ofNat 16 raopBufferLength)

/-- Decrypt the full blocks of a payload; the trailing bytes are sent in the clear. -/
def decryptPayload (cbc : AesSession → List UInt8 → List UInt8) (b : RaopBuffer δ)
    (payload : List UInt8) : List UInt8 :=
  let encryptedLen := payload.length / 16 * 16
  match b.aes with
  | some aes =>
    if 0 < encryptedLen then cbc aes (payload.take encryptedLen) ++ payload.drop encryptedLen
    else payload
  | none => payload

end RaopBuffer

/-- `as_chunks::<2>().0`: the complete pairs of a byte slice. -/
def chunkPairs : List UInt8 → List (UInt8 × UInt8)
  | x :: y :: rest => (x, y) :: chunkPairs rest
  | _ => []

/-- The sample of a 16-bit integer with the given high and low byte. -/
def sampleOfBytes (hi lo : UInt8) : Sample := ((hi.toBitVec ++ lo.toBitVec).toInt : ℚ) / 32768

/-- What decoding a packet produced: the value `queue` returns, or the samples. -/
inductive Decoded
  | rejected (code : Int)
  | samples (samples : List Sample)

namespace Codec

variable {δ : Type} [AlacDecode δ]

/-- Decode a packet into a slot of `room` samples. ALAC writes little-endian 16-bit
samples to a scratch slice of two bytes a sample; `L16` is big-endian on the wire. -/
def decode (capacity room : Nat) (packetBuf : List UInt8) : Codec δ → Codec δ × Decoded
  | .alac config decoder =>
    let (decoder, s16Buf, result) :=
      AlacDecode.decodeFrame decoder packetBuf (List.replicate (capacity * 2) 0)
    let outputSize := result.getD 0
    if outputSize = 0 then (.alac config decoder, .rejected 0)
    else
      let limit := min outputSize s16Buf.length
      (.alac config decoder, .samples
        (((chunkPairs (s16Buf.take limit)).map fun (lo, hi) => sampleOfBytes hi lo).take room))
  | .pcm config =>
    let frameWidth := config.numChannels.toNat * 2
    if packetBuf = [] ∨ packetBuf.length % frameWidth ≠ 0 then (.pcm config, .rejected (-1))
    else
      let samples := ((chunkPairs packetBuf).map fun (hi, lo) => sampleOfBytes hi lo).take room
      if samples.length = 0 then (.pcm config, .rejected 0)
      else (.pcm config, .samples samples)

/-- A rejected packet never looks like an accepted one to the caller. -/
theorem rejected_ne_one {capacity room : Nat} {packetBuf : List UInt8} {c : Codec δ}
    {code : Int} (h : (c.decode capacity room packetBuf).2 = .rejected code) : code ≠ 1 := by
  cases c with
  | alac config decoder =>
    simp only [decode] at h
    split at h
    · cases h
      decide
    · cases h
  | pcm config =>
    simp only [decode] at h
    split at h
    · cases h
      decide
    · split at h
      · cases h
        decide
      · cases h

/-- Silence after a decoded frame: PCM repeats the last frame size, ALAC is constant. -/
def nextSilence (silence : Nat) (samples : List Sample) : Codec δ → Nat
  | .alac _ _ => silence
  | .pcm _ => samples.length

end Codec

namespace RaopBuffer

variable {δ : Type} [AlacDecode δ] (cbc : AesSession → List UInt8 → List UInt8)

/-- Decode the payload of a packet for the slot of its sequence number. -/
def decodePacket (b : RaopBuffer δ) (data : List UInt8) (seqnum : BitVec 16) : Codec δ × Decoded :=
  b.codec.decode b.frameCapacity (b.entryAt (slot seqnum)).audioBuffer.length
    (b.decryptPayload cbc (data.drop 12))

/-- Store a decoded frame in its slot and record it as available. -/
def store (b : RaopBuffer δ) (data : List UInt8) (seqnum : BitVec 16) (samples : List Sample) :
    RaopBuffer δ :=
  let e := b.entryAt (slot seqnum)
  b.setEntry (slot seqnum)
    { available := true
      flags := data.getD 0 0
      entryType := data.getD 1 0
      seqnum := seqnum
      timestamp := (data.getD 4 0).toBitVec ++ (data.getD 5 0).toBitVec ++
        (data.getD 6 0).toBitVec ++ (data.getD 7 0).toBitVec
      ssrc := (data.getD 8 0).toBitVec ++ (data.getD 9 0).toBitVec ++
        (data.getD 10 0).toBitVec ++ (data.getD 11 0).toBitVec
      audioBuffer := samples ++ e.audioBuffer.drop samples.length
      audioBufferLen := samples.length }

/-- Move the window so that it covers an accepted sequence number. -/
def updateWindow (b : RaopBuffer δ) (seqnum : BitVec 16) : RaopBuffer δ :=
  let b := if b.isEmpty then
      { b with firstSeqnum := seqnum, lastSeqnum := seqnum, isEmpty := false }
    else b
  if 0 < seqnumCmp seqnum b.lastSeqnum then { b with lastSeqnum := seqnum } else b

/-- Decode a packet into its slot, which has been cleared before. -/
def fillSlot (b : RaopBuffer δ) (data : List UInt8) (seqnum : BitVec 16) : RaopBuffer δ × Int :=
  match b.decodePacket cbc data seqnum with
  | (codec, .rejected code) => ({ b with codec }, code)
  | (codec, .samples samples) =>
    let b := { b with codec, silenceSamples := codec.nextSilence b.silenceSamples samples }
    ((b.store data seqnum samples).updateWindow seqnum, 1)

/-- Queue a packet whose sequence number is inside the window. An exact duplicate is
skipped; a failed replacement must not leave stale data in the slot. -/
def queueInWindow (b : RaopBuffer δ) (data : List UInt8) (seqnum : BitVec 16) :
    RaopBuffer δ × Int :=
  let e := b.entryAt (slot seqnum)
  if e.available && seqnumCmp e.seqnum seqnum = 0 then (b, 0)
  else (b.setEntry (slot seqnum) e.clear).fillSlot cbc data seqnum

/-- Queue an RTP packet. The result is 1 for an accepted packet, 0 for a stale or
duplicate one and for one without samples, and -1 for a malformed one. -/
def queue (b : RaopBuffer δ) (data : List UInt8) (useSeqnum : Bool) : RaopBuffer δ × Int :=
  if ¬ (12 ≤ data.length ∧ data.length ≤ raopPacketLen) then (b, -1)
  else
    let seqnum := b.packetSeqnum data useSeqnum
    if b.isStale seqnum then (b, 0)
    else if b.isFarAhead seqnum then (b.flush seqnum.toNat).queueInWindow cbc data seqnum
    else b.queueInWindow cbc data seqnum

/-- Take the next frame in order. A missing frame is waited for while retransmission
is possible and the ring is not full, and is replaced by silence otherwise. -/
def dequeue (b : RaopBuffer δ) (noResend : Bool) : RaopBuffer δ × Option (List Sample) :=
  let buflen := seqnumCmp b.lastSeqnum b.firstSeqnum + 1
  if b.isEmpty ∨ buflen ≤ 0 then (b, none)
  else
    let e := b.entryAt (slot b.firstSeqnum)
    if !noResend ∧ !e.available ∧ buflen < raopBufferLength then (b, none)
    else
      let e := if e.available then e else
        let size := min b.silenceSamples b.frameCapacity
        { e with audioBuffer := List.replicate size 0 ++ e.audioBuffer.drop size
                 audioBufferLen := size }
      ({ b.setEntry (slot b.firstSeqnum) e.clear with firstSeqnum := b.firstSeqnum + 1 },
        some (e.audioBuffer.take e.audioBufferLen))

end RaopBuffer

end Shairplay.Raop
