import Mathlib.Data.BitVec
import Shairplay.Codec.Resample
import Shairplay.Lib.Attempt

/-!
# The ALAC decoder

A frame is read bit by bit. A compressed channel is a sequence of Rice coded prediction
errors, from which an adaptive predictor restores the samples; an uncompressed channel
holds the samples themselves. The decoder keeps six scratch buffers between frames.

Integers of the source are bit vectors of the same width, and their arithmetic wraps;
a shift uses the low bits of its amount, as the machine does. Everything that indexes or
slices may panic, and a panic keeps what was written before (`Attempt`).
-/

namespace Shairplay.Codec

open Lib

/-- `i32` and `u32` -/
abbrev Word := BitVec 32

/-- `x << n` -/
def shl (x n : Word) : Word := x <<< (n.toNat % 32)

/-- `x >> n` of an unsigned number. -/
def shr (x n : Word) : Word := x >>> (n.toNat % 32)

/-- `x >> n` of a signed number. -/
def sar (x n : Word) : Word := x.sshiftRight (n.toNat % 32)

/-- Reader of the bits of a frame. -/
structure BitReader where
  buf : List UInt8
  pos : Nat
  bit : Word
  deriving DecidableEq

namespace BitReader

def new (buf : List UInt8) : BitReader := ⟨buf, 0, 0⟩

/-- A byte of the frame; zero behind its end. -/
def byteAt (r : BitReader) (p : Nat) : Word := (r.buf.getD p 0).toBitVec.setWidth 32

def readbits16 (r : BitReader) (bits : Word) : Word × BitReader :=
  let b0 := r.byteAt r.pos
  let b1 := r.byteAt (r.pos + 1)
  let b2 := r.byteAt (r.pos + 2)
  let result := (b0 <<< 16) ||| (b1 <<< 8) ||| b2
  let result := shl result r.bit &&& 0x00ffffff
  let result := shr result (24 - bits)
  let newAcc := r.bit + bits
  (result, { r with pos := r.pos + (newAcc >>> 3).toNat, bit := newAcc &&& 7 })

def readbits (r : BitReader) (bits : Word) : Word × BitReader :=
  if 16 < bits then
    let (high, r) := r.readbits16 16
    let (low, r) := r.readbits16 (bits - 16)
    (shl high (bits - 16) ||| low, r)
  else r.readbits16 bits

def readbit (r : BitReader) : Word × BitReader :=
  let result := (shl (r.byteAt r.pos) r.bit >>> 7) &&& 1
  let newAcc := r.bit + 1
  (result, { r with pos := r.pos + (newAcc / 8).toNat, bit := newAcc % 8 })

def unreadbits (r : BitReader) (bits : Word) : BitReader :=
  let total : Int := r.pos * 8 + r.bit.toNat - bits.toNat
  { r with pos := (total.tdiv 8).toNat, bit := BitVec.ofInt 32 (total.emod 8) }

end BitReader

def countLeadingZeros (input : Word) : Word := if input = 0 then 32 else input.clz

def signExtend32 (val bits : Word) : Word := sar (shl val (32 - bits)) (32 - bits)

def signExtend24 (val : Word) : Word := sar (shl val 8) 8

def signOnly (v : Word) : Word := if v.toInt < 0 then -1 else if 0 < v.toInt then 1 else 0

def riceThreshold : Nat := 8

/-- Count one bits up to the threshold; the count one above it is an escape code. -/
def readUnary : (room : Nat) → Word → BitReader → Word × BitReader
  | 0, x, r => (x, r)
  | room + 1, x, r =>
    let (bit, r) := r.readbit
    if bit ≠ 0 then readUnary room (x + 1) r else (x, r)

def entropyDecodeValue (readSampleSize k riceKmodifierMask : Word) (r : BitReader) :
    Word × BitReader :=
  let (x, r) := readUnary (riceThreshold + 1) 0 r
  if riceThreshold < x.toNat then
    let (value, r) := r.readbits readSampleSize
    (value &&& shr 0xffffffff (32 - readSampleSize), r)
  else if k ≠ 1 then
    let (extraBits, r) := r.readbits k
    let x := x * ((shl 1 k - 1) &&& riceKmodifierMask)
    if 1 < extraBits then (x + (extraBits - 1), r) else (x, r.unreadbits 1)
  else (x, r)

structure RiceParams where
  initialHistory : Word
  kModifier : Word
  historyMult : Word
  kModifierMask : Word

/-- The Rice parameter of the next value. -/
def RiceParams.k (rice : RiceParams) (history : Word) : Word :=
  let v := 31 - rice.kModifier - countLeadingZeros (sar history 9 + 3)
  if v.toInt < 0 then v + rice.kModifier else rice.kModifier

/-- The Rice parameter of the length of a run of zeros. -/
def zeroRunK (history : Word) : Word := countLeadingZeros history + (history + 16) / 64 - 24

/-- Even codes are positive, odd codes negative. -/
def finalValue (decodedValue : Word) : Word :=
  let v := (decodedValue + 1).sdiv 2
  if decodedValue &&& 1 ≠ 0 then -v else v

def RiceParams.nextHistory (rice : RiceParams) (history decodedValue : Word) : Word :=
  if 0xFFFF < decodedValue.toInt then 0xFFFF
  else history + (decodedValue * rice.historyMult - sar (history * rice.historyMult) 9)

/-- `xs[start..stop].fill(value)` -/
def fill (start stop : Nat) (value : Word) : Attempt (List Word) Unit :=
  if start ≤ stop then .writeSlice start (List.replicate (stop - start) value) else .fail

/-- Use the reader beside a buffer. -/
def reading {β : Type} (read : BitReader → Word × BitReader) : Attempt (BitReader × β) Word :=
  .total fun (r, out) => ((read r).1, (read r).2, out)

/-- Write to the buffer beside a reader. -/
def writing (m : Attempt (List Word) Unit) : Attempt (BitReader × List Word) Unit :=
  .focus Prod.snd (fun out s => (s.1, out)) m

/-- The loop of `entropy_rice_decode`. Each round passes at least one index. -/
def riceLoop (outputSize : Nat) (readSampleSize : Word) (rice : RiceParams) :
    (rounds i : Nat) → (history signModifier : Word) → Attempt (BitReader × List Word) Unit
  | 0, _, _, _ => pure ()
  | rounds + 1, i, history, signModifier =>
    if i < outputSize then do
      let value ← reading (entropyDecodeValue readSampleSize (rice.k history) 0xFFFFFFFF)
      let decodedValue := value + signModifier
      writing (.write i (finalValue decodedValue))
      let history := rice.nextHistory history decodedValue
      if history.toInt < 128 ∧ i + 1 < outputSize then
        let blockSize ← reading (entropyDecodeValue 16 (zeroRunK history) rice.kModifierMask)
        let signModifier := if 0xFFFF < blockSize.toInt then 0 else 1
        if 0 < blockSize.toInt then
          let stop := min (i + 1 + blockSize.toNat) outputSize
          writing (fill (i + 1) stop 0)
          riceLoop outputSize readSampleSize rice rounds stop 0 signModifier
        else riceLoop outputSize readSampleSize rice rounds (i + 1) 0 signModifier
      else riceLoop outputSize readSampleSize rice rounds (i + 1) history 0
    else pure ()

def entropyRiceDecode (outputSize : Nat) (readSampleSize : Word) (rice : RiceParams) :
    Attempt (BitReader × List Word) Unit :=
  riceLoop outputSize readSampleSize rice outputSize 0 rice.initialHistory 0

/-- The predictor writes the samples and adapts its coefficients. -/
abbrev Predictor := Attempt (List Word × List (BitVec 16))

/-- `buffer_out[i]` -/
def bufferOut (i : Nat) : Predictor Word := fun s => (s.1[i]?, s)

/-- `predictor_coef_table[i]` -/
def coefficient (i : Nat) : Predictor (BitVec 16) := fun s => (s.2[i]?, s)

/-- Write to `buffer_out`. -/
def onBuffer (m : Attempt (List Word) Unit) : Predictor Unit :=
  .focus Prod.fst (fun out s => (out, s.2)) m

/-- Write to `predictor_coef_table`. -/
def onTable (m : Attempt (List (BitVec 16)) Unit) : Predictor Unit :=
  .focus Prod.snd (fun table s => (s.1, table)) m

/-- One sample from the sample before it and a difference. -/
def deltaRound (errorBuffer : List Word) (readsamplesize : Word) (i : Nat) : Predictor Unit := do
  let previous ← bufferOut i
  let error ← Attempt.index errorBuffer (i + 1)
  onBuffer (.write (i + 1) (signExtend32 (previous + error) readsamplesize))

/-- The weighted sum of the window behind `off`. -/
def predictorSum (coefNum off : Nat) : Predictor (BitVec 64) :=
  Attempt.foldRange (fun j sum => do
      let x ← bufferOut (off + coefNum - j)
      let base ← bufferOut off
      let c ← coefficient j
      pure (sum + (x - base).signExtend 64 * c.signExtend 64))
    0 coefNum 0

/-- The next sample: the sum is rounded and scaled, and the base and the error are added. -/
def nextSample (readsamplesize quantitization : Word) (sum : BitVec 64) (base error : Word) :
    Word :=
  let pq := if quantitization.toInt < 0 then 0 else quantitization
  let rounding : BitVec 64 := if pq = 0 then 0 else 1 <<< ((pq - 1).toNat % 64)
  let outval := (rounding + sum).sshiftRight (pq.toNat % 64)
  signExtend32 ((outval + (base.signExtend 64 + error.signExtend 64)).setWidth 32) readsamplesize

/-- The signs the two directions of the adaptation use, and how long they go on. -/
structure Direction where
  sign : Word → Word
  goesOn : Word → Bool

def upward : Direction := ⟨signOnly, fun ev => 0 < ev.toInt⟩

def downward : Direction := ⟨fun v => -signOnly v, fun ev => ev.toInt < 0⟩

/-- Adapt the coefficients below `pn`, from the last one down. -/
def adaptLoop (coefNum off : Nat) (quantitization : Word) (d : Direction) :
    (pn : Nat) → (ev : Word) → Predictor Unit
  | 0, _ => pure ()
  | pn + 1, ev =>
    if d.goesOn ev then do
      let base ← bufferOut off
      let x ← bufferOut (off + coefNum - pn)
      let val := base - x
      let sign := d.sign val
      let c ← coefficient pn
      onTable (.write pn (c - sign.setWidth 16))
      let val := val * sign
      adaptLoop coefNum off quantitization d pn
        (ev - sar val quantitization * BitVec.ofNat 32 (coefNum - pn))
    else pure ()

def predictorRound (readsamplesize quantitization : Word) (coefNum off : Nat) (errorVal : Word) :
    Predictor Unit := do
  let sum ← predictorSum coefNum off
  let base ← bufferOut off
  let outval := nextSample readsamplesize quantitization sum base errorVal
  onBuffer (.write (off + coefNum + 1) outval)
  if 0 < errorVal.toInt then adaptLoop coefNum off quantitization upward coefNum errorVal
  else if errorVal.toInt < 0 then adaptLoop coefNum off quantitization downward coefNum errorVal
  else pure ()

def predictorDecompressFirAdapt (errorBuffer : List Word) (outputSize : Nat)
    (readsamplesize : Word) (coefNum : Nat) (quantitization : Word) : Predictor Unit := do
  let out ← Attempt.view Prod.fst
  if outputSize = 0 ∨ errorBuffer = [] ∨ out = [] then pure ()
  else
    let first ← Attempt.index errorBuffer 0
    onBuffer (.write 0 first)
    if coefNum = 0 then
      if outputSize ≤ 1 then pure ()
      else
        let errors ← Attempt.slice errorBuffer 1 outputSize
        onBuffer (.writeSlice 1 errors)
    else if coefNum = 0x1f then
      if outputSize ≤ 1 then pure ()
      else Attempt.forRange (outputSize - 1) (deltaRound errorBuffer readsamplesize)
    else
      Attempt.forRange coefNum (deltaRound errorBuffer readsamplesize)
      let errors ← Attempt.slice errorBuffer (coefNum + 1) outputSize
      Attempt.forEnum (predictorRound readsamplesize quantitization coefNum) 0 errors

structure AlacDecoder where
  numChannels : Word
  bytesPerSample : Word
  maxSamplesPerFrame : Word
  sampleSizeConfig : BitVec 8
  riceHistoryMult : BitVec 8
  riceInitialHistory : BitVec 8
  riceKModifier : BitVec 8
  maxRun : BitVec 16
  maxFrameBytes : Word
  avgBitRate : Word
  sampleRate : Word
  predicterrorBufferA : List Word
  predicterrorBufferB : List Word
  outputsamplesBufferA : List Word
  outputsamplesBufferB : List Word
  uncompressedBytesBufferA : List Word
  uncompressedBytesBufferB : List Word
  deriving DecidableEq

/-- A big-endian `u32` of a configuration block. -/
def beWord (config : List UInt8) (p : Nat) : Word :=
  (config.getD p 0).toBitVec ++ (config.getD (p + 1) 0).toBitVec ++
    (config.getD (p + 2) 0).toBitVec ++ (config.getD (p + 3) 0).toBitVec

namespace AlacDecoder

def new (sampleSize numChannels : Word) : AlacDecoder where
  numChannels := numChannels
  bytesPerSample := sampleSize.sdiv 8 * numChannels
  maxSamplesPerFrame := 0
  sampleSizeConfig := 0
  riceHistoryMult := 0
  riceInitialHistory := 0
  riceKModifier := 0
  maxRun := 0
  maxFrameBytes := 0
  avgBitRate := 0
  sampleRate := 0
  predicterrorBufferA := []
  predicterrorBufferB := []
  outputsamplesBufferA := []
  outputsamplesBufferB := []
  uncompressedBytesBufferA := []
  uncompressedBytesBufferB := []

def allocateBuffers (dec : AlacDecoder) : AlacDecoder :=
  let buffer := List.replicate dec.maxSamplesPerFrame.toNat 0
  { dec with
    predicterrorBufferA := buffer
    predicterrorBufferB := buffer
    outputsamplesBufferA := buffer
    outputsamplesBufferB := buffer
    uncompressedBytesBufferA := buffer
    uncompressedBytesBufferB := buffer }

/-- The fields of a configuration block, before they are checked. -/
def readConfig (dec : AlacDecoder) (config : List UInt8) : AlacDecoder :=
  { dec with
    maxSamplesPerFrame := beWord config 24
    sampleSizeConfig := (config.getD 29 0).toBitVec
    riceHistoryMult := (config.getD 30 0).toBitVec
    riceInitialHistory := (config.getD 31 0).toBitVec
    riceKModifier := (config.getD 32 0).toBitVec
    maxRun := (config.getD 34 0).toBitVec ++ (config.getD 35 0).toBitVec
    maxFrameBytes := beWord config 36
    avgBitRate := beWord config 40
    sampleRate := beWord config 44 }

/-- `sample_size_config as u32` -/
def sampleSize (dec : AlacDecoder) : Word := dec.sampleSizeConfig.setWidth 32

/-- Take over the number of channels of a configuration inside the profile. -/
def setChannels (dec : AlacDecoder) (numChannels : Word) : AlacDecoder :=
  { dec with numChannels, bytesPerSample := dec.sampleSize.sdiv 8 * numChannels }

/-- Allocate the buffers, unless there are no samples to decode. -/
def enable (dec : AlacDecoder) : AlacDecoder :=
  if dec.maxSamplesPerFrame = 0 ∨ dec.bytesPerSample.toInt ≤ 0 then dec else dec.allocateBuffers

/-- Check a configuration; one outside the profile disables decoding. -/
def configure (dec : AlacDecoder) (numChannels : BitVec 8) : AlacDecoder :=
  if (dec.sampleSizeConfig ≠ 16 ∧ dec.sampleSizeConfig ≠ 24) ∨
      ¬ (1 ≤ numChannels ∧ numChannels ≤ 2) then
    { dec with maxSamplesPerFrame := 0, bytesPerSample := 0 }
  else (dec.setChannels (numChannels.setWidth 32)).enable

/-- Initialize the decoder with a configuration block of 48 bytes. -/
def setInfo (dec : AlacDecoder) (config : List UInt8) : AlacDecoder :=
  if config.length < 48 then dec
  else (dec.readConfig config).configure (config.getD 33 0).toBitVec

end AlacDecoder

structure PredictorHeader where
  predQuant : Word
  ricemod : Word
  predNum : Nat
  predTable : List (BitVec 16)

/-- What the header of a frame says: the samples per channel, the bytes of the output, the
uncompressed bytes a sample has, and whether the samples are uncompressed. -/
structure SubframeHeader where
  outputSamples : Nat
  outputSize : Nat
  uncompressedBytes : Word
  isNotCompressed : Word

/-- Parse the header that mono and stereo frames share. The frame length of the
configuration holds unless the frame gives its own. -/
def parseSubframeHeader (outputSamples outputSize bytesPerSample : Nat) (r : BitReader) :
    SubframeHeader × BitReader :=
  let (_, r) := r.readbits 4
  let (_, r) := r.readbits 12
  let (hasSize, r) := r.readbits 1
  let (uncompressedBytes, r) := r.readbits 2
  let (isNotCompressed, r) := r.readbits 1
  if hasSize ≠ 0 then
    let (size, r) := r.readbits 32
    (⟨size.toNat, size.toNat * bytesPerSample, uncompressedBytes, isNotCompressed⟩, r)
  else (⟨outputSamples, outputSize, uncompressedBytes, isNotCompressed⟩, r)

/-- `iter_mut().for_each(|v| *v = reader.readbits(bits))` on a slice of `count` elements. -/
def readMany (bits : Word) (count : Nat) (r : BitReader) : List Word × BitReader :=
  Attempt.produce (fun r : BitReader => r.readbits bits) count r

/-- The header of one channel. The table has room for 32 coefficients. -/
def readPredictorHeader : Attempt BitReader PredictorHeader := do
  let _ ← Attempt.total fun r : BitReader => r.readbits 4
  let predQuant ← Attempt.total fun r : BitReader => r.readbits 4
  let ricemod ← Attempt.total fun r : BitReader => r.readbits 3
  let predNum ← Attempt.total fun r : BitReader => r.readbits 5
  if predNum.toNat ≤ 32 then
    let values ← Attempt.total (readMany 16 predNum.toNat)
    let predTable := values.map (BitVec.setWidth 16) ++ List.replicate (32 - predNum.toNat) 0
    pure ⟨predQuant, ricemod, predNum.toNat, predTable⟩
  else Attempt.fail

/-- What a call of `decode_frame` works on. -/
structure FrameState where
  dec : AlacDecoder
  reader : BitReader
  output : List UInt8

/-- Code of `decode_frame` and the functions it calls. -/
abbrev Decode := Attempt FrameState

namespace FrameState

def setReader (reader : BitReader) (s : FrameState) : FrameState := { s with reader }

def setOutput (output : List UInt8) (s : FrameState) : FrameState := { s with output }

/-- Put the reader and `outputsamples_buffer_a` back. -/
def setMono (part : BitReader × List Word) (s : FrameState) : FrameState :=
  { s with reader := part.1, dec := { s.dec with outputsamplesBufferA := part.2 } }

/-- Put the reader and both buffers of samples back. -/
def setStereo (part : BitReader × List Word × List Word) (s : FrameState) : FrameState :=
  { s with
    reader := part.1
    dec := { s.dec with
      outputsamplesBufferA := part.2.1
      outputsamplesBufferB := part.2.2 } }

/-- Put the reader and `uncompressed_bytes_buffer_a` back. -/
def setMonoLow (part : BitReader × List Word) (s : FrameState) : FrameState :=
  { s with reader := part.1, dec := { s.dec with uncompressedBytesBufferA := part.2 } }

/-- Put the reader and both buffers of uncompressed bytes back. -/
def setStereoLow (part : BitReader × List Word × List Word) (s : FrameState) : FrameState :=
  { s with
    reader := part.1
    dec := { s.dec with
      uncompressedBytesBufferA := part.2.1
      uncompressedBytesBufferB := part.2.2 } }

end FrameState

namespace Decode

def read {α : Type} (m : Attempt BitReader α) : Decode α := .focus (·.reader) .setReader m

def readbits (bits : Word) : Decode Word := read (.total fun r => r.readbits bits)

/-- `output[i] = value` -/
def writeByte (i : Nat) (value : UInt8) : Decode Unit :=
  .focus (·.output) .setOutput (.write i value)

/-- `output[start..start + bytes.len()].copy_from_slice(bytes)` -/
def writeBytes (start : Nat) (bytes : List UInt8) : Decode Unit :=
  .focus (·.output) .setOutput (.writeSlice start bytes)

/-- `buffer[i]` of the decoder. -/
def sampleOf (buffer : AlacDecoder → List Word) (i : Nat) : Decode Word :=
  fun s => ((buffer s.dec)[i]?, s)

end Decode

/-- `x as u8` -/
def lowByte (x : Word) : UInt8 := ⟨x.setWidth 8⟩

/-- `(x as i16).to_le_bytes()` -/
def le16 (x : Word) : List UInt8 := [lowByte x, lowByte (x >>> 8)]

/-- The low bits that uncompressed bytes fill. -/
def lowMask (uncompressedBytes : Word) : Word := ~~~ shl 0xFFFFFFFF (uncompressedBytes * 8)

/-- Put the uncompressed bytes of a sample below its decoded part. -/
def withLowBytes (uncompressedBytes sample low : Word) : Word :=
  shl sample (uncompressedBytes * 8) ||| (low &&& lowMask uncompressedBytes)

/-- Left and right from the two decoded channels. -/
def unmix (shift leftweight : BitVec 8) (a b : Word) : Word × Word :=
  if leftweight ≠ 0 then
    let r := a - sar (b * leftweight.setWidth 32) (shift.setWidth 32)
    (r + b, r)
  else (a, b)

def deinterlace16 (numChannels numSamples : Nat) (shift leftweight : BitVec 8) : Decode Unit :=
  Attempt.forRange numSamples fun i => do
    let a ← Decode.sampleOf (·.outputsamplesBufferA) i
    let b ← Decode.sampleOf (·.outputsamplesBufferB) i
    let samples := unmix shift leftweight a b
    Decode.writeBytes ((i * numChannels) * 2) (le16 samples.1)
    Decode.writeBytes ((i * numChannels + 1) * 2) (le16 samples.2)

/-- The two samples of `deinterlace_24`, with their uncompressed bytes if there are any. -/
def samples24 (uncompressedBytes : Word) (shift leftweight : BitVec 8) (i : Nat) :
    Decode (Word × Word) := do
  let a ← Decode.sampleOf (·.outputsamplesBufferA) i
  let b ← Decode.sampleOf (·.outputsamplesBufferB) i
  let samples := unmix shift leftweight a b
  if 0 < uncompressedBytes then
    let lowA ← Decode.sampleOf (·.uncompressedBytesBufferA) i
    let lowB ← Decode.sampleOf (·.uncompressedBytesBufferB) i
    pure (withLowBytes uncompressedBytes samples.1 lowA,
      withLowBytes uncompressedBytes samples.2 lowB)
  else pure samples

def deinterlace24 (uncompressedBytes : Word) (numChannels numSamples : Nat)
    (shift leftweight : BitVec 8) : Decode Unit :=
  Attempt.forRange numSamples fun i => do
    let samples ← samples24 uncompressedBytes shift leftweight i
    let base := i * numChannels * 3
    Decode.writeByte base (lowByte samples.1)
    Decode.writeByte (base + 1) (lowByte (sar samples.1 8))
    Decode.writeByte (base + 2) (lowByte (sar samples.1 16))
    Decode.writeByte (base + 3) (lowByte samples.2)
    Decode.writeByte (base + 4) (lowByte (sar samples.2 8))
    Decode.writeByte (base + 5) (lowByte (sar samples.2 16))

namespace AlacDecoder

/-- The buffer of prediction errors of channel B or A. -/
def predicterrorBuffer (dec : AlacDecoder) (channelB : Bool) : List Word :=
  if channelB then dec.predicterrorBufferB else dec.predicterrorBufferA

def setPredicterrorBuffer (dec : AlacDecoder) (channelB : Bool) (buffer : List Word) :
    AlacDecoder :=
  if channelB then { dec with predicterrorBufferB := buffer }
  else { dec with predicterrorBufferA := buffer }

/-- The buffer of samples of channel B or A. -/
def outputsamplesBuffer (dec : AlacDecoder) (channelB : Bool) : List Word :=
  if channelB then dec.outputsamplesBufferB else dec.outputsamplesBufferA

def setOutputsamplesBuffer (dec : AlacDecoder) (channelB : Bool) (buffer : List Word) :
    AlacDecoder :=
  if channelB then { dec with outputsamplesBufferB := buffer }
  else { dec with outputsamplesBufferA := buffer }

def riceParams (dec : AlacDecoder) (hdr : PredictorHeader) : RiceParams where
  initialHistory := dec.riceInitialHistory.setWidth 32
  kModifier := dec.riceKModifier.setWidth 32
  historyMult := hdr.ricemod * dec.riceHistoryMult.setWidth 32 / 4
  kModifierMask := shl 1 (dec.riceKModifier.setWidth 32) - 1

end AlacDecoder

namespace FrameState

/-- Put the reader and the prediction errors of a channel back. -/
def setErrors (channelB : Bool) (part : BitReader × List Word) (s : FrameState) : FrameState :=
  { s with reader := part.1, dec := s.dec.setPredicterrorBuffer channelB part.2 }

/-- Put the samples of a channel back; the coefficients were a copy. -/
def setSamples (channelB : Bool) (part : List Word × List (BitVec 16)) (s : FrameState) :
    FrameState :=
  { s with dec := s.dec.setOutputsamplesBuffer channelB part.1 }

end FrameState

/-- Rice-decode, then predict one channel. The coefficients are a copy of the header's. -/
def decodeChannel (channelB : Bool) (outputSamples : Nat) (readsamplesize : Word)
    (hdr : PredictorHeader) : Decode Unit := do
  let rice ← Attempt.view fun s => s.dec.riceParams hdr
  Attempt.focus (fun s => (s.reader, s.dec.predicterrorBuffer channelB)) (.setErrors channelB)
    (entropyRiceDecode outputSamples readsamplesize rice)
  let prederr ← Attempt.view fun s => s.dec.predicterrorBuffer channelB
  Attempt.focus (fun s => (s.dec.outputsamplesBuffer channelB, hdr.predTable))
    (.setSamples channelB)
    (predictorDecompressFirAdapt prederr outputSamples readsamplesize hdr.predNum hdr.predQuant)

/-- An uncompressed sample of 16 bits. -/
def readSample16 (sampleSize : Word) (r : BitReader) : Word × BitReader :=
  let (v, r) := r.readbits sampleSize
  (signExtend32 v sampleSize, r)

/-- An uncompressed sample of 24 bits. -/
def readSample24 (sampleSize : Word) (r : BitReader) : Word × BitReader :=
  let (high, r) := r.readbits 16
  let (low, r) := r.readbits (sampleSize - 16)
  (signExtend24 (shl high (sampleSize - 16) ||| low), r)

/-- `buffer[..count].iter_mut().for_each(|v| *v = reader.readbits(bits))` -/
def fillSlice (bits : Word) (count : Nat) : Attempt (BitReader × List Word) Unit := do
  let buffer ← Attempt.view Prod.snd
  if count ≤ buffer.length then
    Attempt.total fun s => ((), (readMany bits count s.1).2,
      overwrite (readMany bits count s.1).1 buffer)
  else Attempt.fail

def fillBuffer (count : Nat) (read : BitReader → Word × BitReader) :
    Attempt (BitReader × List Word) Unit :=
  Attempt.forRange count fun i => do
    let v ← reading read
    writing (.write i v)

/-- Write to the first of two buffers beside a reader. -/
def writingA (m : Attempt (List Word) Unit) : Attempt (BitReader × List Word × List Word) Unit :=
  .focus (·.2.1) (fun out s => (s.1, out, s.2.2)) m

/-- Write to the second of two buffers beside a reader. -/
def writingB (m : Attempt (List Word) Unit) : Attempt (BitReader × List Word × List Word) Unit :=
  .focus (·.2.2) (fun out s => (s.1, s.2.1, out)) m

/-- Fill two buffers by index; each value is written when it has been read. -/
def fillBuffers (count : Nat) (read : BitReader → Word × BitReader) :
    Attempt (BitReader × List Word × List Word) Unit :=
  Attempt.forRange count fun i => do
    let a ← reading read
    writingA (.write i a)
    let b ← reading read
    writingB (.write i b)

/-- Fill two buffers by index; both values are read before either is written. -/
def fillBuffersTogether (count : Nat) (read : BitReader → Word × BitReader) :
    Attempt (BitReader × List Word × List Word) Unit :=
  Attempt.forRange count fun i => do
    let a ← reading read
    let b ← reading read
    writingA (.write i a)
    writingB (.write i b)

/-- The uncompressed low bytes of a compressed mono frame, if it has any. -/
def readMonoLow (hdr : SubframeHeader) : Decode Unit :=
  if 0 < hdr.uncompressedBytes then
    .focus (fun s => (s.reader, s.dec.uncompressedBytesBufferA)) .setMonoLow
      (fillSlice (hdr.uncompressedBytes * 8) hdr.outputSamples)
  else pure ()

def readMonoVerbatim (outputSamples : Nat) (sampleSize : Word) : Decode Unit :=
  .focus (fun s => (s.reader, s.dec.outputsamplesBufferA)) .setMono
    (if sampleSize ≤ 16 then fillBuffer outputSamples (readSample16 sampleSize)
      else fillBuffer outputSamples (readSample24 sampleSize))

/-- The samples of a mono frame, compressed or not. The interlacing fields are in the
stream but not used. -/
def readMono (hdr : SubframeHeader) (readsamplesize : Word) : Decode Unit :=
  if hdr.isNotCompressed = 0 then do
    let _ ← Decode.readbits 8
    let _ ← Decode.readbits 8
    let predictor ← Decode.read readPredictorHeader
    readMonoLow hdr
    decodeChannel false hdr.outputSamples readsamplesize predictor
  else do
    let dec ← Attempt.view FrameState.dec
    readMonoVerbatim hdr.outputSamples dec.sampleSize

/-- A 24-bit sample of a mono frame, with its uncompressed bytes if there are any. -/
def monoSample24 (hdr : SubframeHeader) (i : Nat) : Decode Word := do
  let sample ← Decode.sampleOf (·.outputsamplesBufferA) i
  if 0 < hdr.uncompressedBytes ∧ hdr.isNotCompressed = 0 then
    let low ← Decode.sampleOf (·.uncompressedBytesBufferA) i
    pure (withLowBytes hdr.uncompressedBytes sample low)
  else pure sample

/-- Write the 16-bit samples of a mono frame. -/
def writeMono16 (numChannels : Nat) (hdr : SubframeHeader) : Decode Unit :=
  Attempt.forRange hdr.outputSamples fun i => do
    let s ← Decode.sampleOf (·.outputsamplesBufferA) i
    Decode.writeBytes (i * numChannels * 2) (le16 s)

/-- Write the 24-bit samples of a mono frame. -/
def writeMono24 (numChannels : Nat) (hdr : SubframeHeader) : Decode Unit :=
  Attempt.forRange hdr.outputSamples fun i => do
    let sample ← monoSample24 hdr i
    let off := i * numChannels * 3
    Decode.writeByte off (lowByte sample)
    Decode.writeByte (off + 1) (lowByte (sar sample 8))
    Decode.writeByte (off + 2) (lowByte (sar sample 16))

def writeMono (hdr : SubframeHeader) : Decode Bool := do
  let dec ← Attempt.view FrameState.dec
  if dec.sampleSizeConfig = 16 then
    writeMono16 dec.numChannels.toNat hdr
    pure true
  else if dec.sampleSizeConfig = 24 then
    writeMono24 dec.numChannels.toNat hdr
    pure true
  else pure false

/-- How much of the output a frame fills, or that it is refused. -/
inductive Verdict
  | refused
  | empty
  | decodes

/-- The checks on a header. A frame of no samples is accepted and writes nothing. -/
def SubframeHeader.verdict (hdr : SubframeHeader) (dec : AlacDecoder) (room : Nat) : Verdict :=
  if dec.maxSamplesPerFrame.toNat < hdr.outputSamples ∨ room < hdr.outputSize then .refused
  else if hdr.outputSamples = 0 then .empty
  else if dec.sampleSize < hdr.uncompressedBytes * 8 then .refused
  else .decodes

/-- The header that both decoders start with, and its verdict. -/
def openSubframe : Decode (SubframeHeader × Verdict) := do
  let s ← Attempt.view id
  let outputSamples := s.dec.maxSamplesPerFrame.toNat
  let bytesPerSample := s.dec.bytesPerSample.toNat
  let hdr ← Decode.read (.total (parseSubframeHeader outputSamples
    (outputSamples * bytesPerSample) bytesPerSample))
  pure (hdr, hdr.verdict s.dec s.output.length)

/-- Decode a mono frame; the result is the flag and the `output_size` the caller sees. -/
def decodeMono : Decode (Bool × Nat) := do
  let opened ← openSubframe
  match opened.2 with
  | .refused => pure (false, 0)
  | .empty => pure (true, 0)
  | .decodes =>
    let dec ← Attempt.view FrameState.dec
    readMono opened.1 (dec.sampleSize - opened.1.uncompressedBytes * 8)
    let ok ← writeMono opened.1
    pure (ok, opened.1.outputSize)

/-- The uncompressed low bytes of a compressed stereo frame, if it has any. -/
def readStereoLow (hdr : SubframeHeader) : Decode Unit :=
  if 0 < hdr.uncompressedBytes then
    .focus (fun s => (s.reader, s.dec.uncompressedBytesBufferA, s.dec.uncompressedBytesBufferB))
      .setStereoLow
      (fillBuffers hdr.outputSamples fun r => r.readbits (hdr.uncompressedBytes * 8))
  else pure ()

def readStereoVerbatim (outputSamples : Nat) (sampleSize : Word) : Decode Unit :=
  .focus (fun s => (s.reader, s.dec.outputsamplesBufferA, s.dec.outputsamplesBufferB)) .setStereo
    (if sampleSize ≤ 16 then fillBuffersTogether outputSamples (readSample16 sampleSize)
      else fillBuffers outputSamples (readSample24 sampleSize))

/-- The samples of a stereo frame; the result is the interlacing shift and left weight.
Both predictor headers are read before either channel is decoded. -/
def readStereo (hdr : SubframeHeader) (readsamplesize : Word) : Decode (BitVec 8 × BitVec 8) :=
  if hdr.isNotCompressed = 0 then do
    let shift ← Decode.readbits 8
    let leftweight ← Decode.readbits 8
    let hdrA ← Decode.read readPredictorHeader
    let hdrB ← Decode.read readPredictorHeader
    readStereoLow hdr
    decodeChannel false hdr.outputSamples readsamplesize hdrA
    decodeChannel true hdr.outputSamples readsamplesize hdrB
    pure (shift.setWidth 8, leftweight.setWidth 8)
  else do
    let dec ← Attempt.view FrameState.dec
    readStereoVerbatim hdr.outputSamples dec.sampleSize
    pure (0, 0)

def writeStereo (hdr : SubframeHeader) (mix : BitVec 8 × BitVec 8) : Decode Bool := do
  let dec ← Attempt.view FrameState.dec
  if dec.sampleSizeConfig = 16 then
    deinterlace16 dec.numChannels.toNat hdr.outputSamples mix.1 mix.2
    pure true
  else if dec.sampleSizeConfig = 24 then
    deinterlace24 hdr.uncompressedBytes dec.numChannels.toNat hdr.outputSamples mix.1 mix.2
    pure true
  else pure false

/-- Decode a stereo frame; the result is the flag and the `output_size` the caller sees. -/
def decodeStereo : Decode (Bool × Nat) := do
  let opened ← openSubframe
  match opened.2 with
  | .refused => pure (false, 0)
  | .empty => pure (true, 0)
  | .decodes =>
    let dec ← Attempt.view FrameState.dec
    let mix ← readStereo opened.1 (dec.sampleSize - opened.1.uncompressedBytes * 8 + 1)
    let ok ← writeStereo opened.1 mix
    pure (ok, opened.1.outputSize)

/-- Decode an element of the given type, if the decoder has that number of channels. -/
def decodeElement (channels : Word) : Decode (Bool × Nat) := do
  let dec ← Attempt.view FrameState.dec
  if channels = 0 then
    if dec.numChannels ≠ 1 then pure (false, 0) else decodeMono
  else if channels = 1 then
    if dec.numChannels ≠ 2 then pure (false, 0) else decodeStereo
  else pure (false, 0)

/-- The body of `decode_frame`, on a reader at the start of the frame. -/
def decodeBody : Decode Nat := do
  let s ← Attempt.view id
  if s.dec.maxSamplesPerFrame = 0 ∨ s.dec.bytesPerSample.toInt ≤ 0 then pure 0
  else
    let channels ← Decode.readbits 3
    if s.output.length < s.dec.maxSamplesPerFrame.toNat * s.dec.bytesPerSample.toNat then pure 0
    else
      let result ← decodeElement channels
      pure (if result.1 then result.2 else 0)

namespace AlacDecoder

/-- Decode one frame: the decoder after it, the output slice, and the number of bytes of it
that were written, or `none` where the call panicked. -/
def decodeFrame (dec : AlacDecoder) (input output : List UInt8) :
    AlacDecoder × List UInt8 × Option Nat :=
  let run := decodeBody ⟨dec, BitReader.new input, output⟩
  (run.2.dec, run.2.output, run.1)

/-- A little-endian sample of 16 bits as a share of full scale. -/
def sample16 (bytes : List UInt8) : ℚ :=
  (((bytes.getD 1 0).toBitVec ++ (bytes.getD 0 0).toBitVec).toInt : ℚ) / 32768

/-- A little-endian sample of 24 bits as a share of full scale. -/
def sample24 (bytes : List UInt8) : ℚ :=
  (((bytes.getD 2 0).toBitVec ++ (bytes.getD 1 0).toBitVec ++
    (bytes.getD 0 0).toBitVec).toInt : ℚ) / 8388608

/-- Decode one frame to samples. A panic of the decoder is caught and counts as nothing
written. -/
def decodeFrameF32 (dec : AlacDecoder) (input : List UInt8) : AlacDecoder × Option (List ℚ) :=
  if dec.maxSamplesPerFrame = 0 ∨ dec.bytesPerSample.toInt ≤ 0 then (dec, none)
  else
    let (dec, pcmBuf, result) := dec.decodeFrame input
      (List.replicate (dec.maxSamplesPerFrame.toNat * dec.bytesPerSample.toNat) 0)
    let len := result.getD 0
    if len = 0 then (dec, none)
    else if dec.sampleSizeConfig = 16 then
      (dec, some ((chunksExact 2 (pcmBuf.take len)).map sample16))
    else if dec.sampleSizeConfig = 24 then
      (dec, some ((chunksExact 3 (pcmBuf.take len)).map sample24))
    else (dec, none)

end AlacDecoder

end Shairplay.Codec
