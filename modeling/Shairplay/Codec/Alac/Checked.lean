import Shairplay.Codec.Alac.Rounds
import Shairplay.Codec.Alac.Safety

/-!
# The decoder of a build with overflow checks

In a build with overflow checks a shift panics if its amount is not smaller than the width of
its operand; without them it uses the low bits of the amount. The functions of the decoder are
given here once more, under the same names, with shifts of the first kind; all other arithmetic
wraps as before. A shift whose amount is a literal is the same in both builds and stays a plain
one.

The readers and the Rice decoder of the two builds are compared here, and the predictor and the
frames behind them in `ShiftRange`.
-/

namespace Shairplay.Codec.Checked

open Lib Lib.Attempt

variable {σ : Type}

/-- A shift whose amount is checked against the width of the operand. -/
def shifted {w : Nat} (shift : Nat → BitVec w) (n : Word) : Attempt σ (BitVec w) :=
  if n.toNat < w then pure (shift n.toNat) else .fail

/-- `x << n` -/
def shl (x n : Word) : Attempt σ Word := shifted (x <<< ·) n

/-- `x >> n` of an unsigned number. -/
def shr (x n : Word) : Attempt σ Word := shifted (x >>> ·) n

/-- `x >> n` of a signed number. -/
def sar (x n : Word) : Attempt σ Word := shifted x.sshiftRight n

/-- `x << n` of an `i64`. -/
def shl64 (x : BitVec 64) (n : Word) : Attempt σ (BitVec 64) := shifted (x <<< ·) n

/-- `x >> n` of an `i64`. -/
def sar64 (x : BitVec 64) (n : Word) : Attempt σ (BitVec 64) := shifted x.sshiftRight n

def readbits16 (bits : Word) : Attempt BitReader Word := do
  let r ← Attempt.view id
  let b0 := r.byteAt r.pos
  let b1 := r.byteAt (r.pos + 1)
  let b2 := r.byteAt (r.pos + 2)
  let result := (b0 <<< 16) ||| (b1 <<< 8) ||| b2
  let result ← shl result r.bit
  let result ← shr (result &&& 0x00ffffff) (24 - bits)
  let newAcc := r.bit + bits
  Attempt.total fun r =>
    (result, { r with pos := r.pos + (newAcc >>> 3).toNat, bit := newAcc &&& 7 })

def readbits (bits : Word) : Attempt BitReader Word :=
  if 16 < bits then do
    let high ← readbits16 16
    let high ← shl high (bits - 16)
    let low ← readbits16 (bits - 16)
    pure (high ||| low)
  else readbits16 bits

def readbit : Attempt BitReader Word := do
  let r ← Attempt.view id
  let result ← shl (r.byteAt r.pos) r.bit
  let newAcc := r.bit + 1
  Attempt.total fun r =>
    ((result >>> 7) &&& 1, { r with pos := r.pos + (newAcc / 8).toNat, bit := newAcc % 8 })

def signExtend32 (val bits : Word) : Attempt σ Word := do
  let high ← shl val (32 - bits)
  sar high (32 - bits)

def readUnary : (room : Nat) → Word → Attempt BitReader Word
  | 0, x => pure x
  | room + 1, x => do
    let bit ← readbit
    if bit ≠ 0 then readUnary room (x + 1) else pure x

def entropyDecodeValue (readSampleSize k riceKmodifierMask : Word) : Attempt BitReader Word := do
  let x ← readUnary (riceThreshold + 1) 0
  if riceThreshold < x.toNat then
    let value ← readbits readSampleSize
    let mask ← shr 0xffffffff (32 - readSampleSize)
    pure (value &&& mask)
  else if k ≠ 1 then
    let extraBits ← readbits k
    let power ← shl 1 k
    let x := x * ((power - 1) &&& riceKmodifierMask)
    if 1 < extraBits then pure (x + (extraBits - 1))
    else Attempt.total fun r => (x, r.unreadbits 1)
  else pure x

/-- Use the reader beside a buffer. -/
def reading {β : Type} (m : Attempt BitReader Word) : Attempt (BitReader × β) Word :=
  .focus Prod.fst (fun r s => (r, s.2)) m

def riceLoop (outputSize : Nat) (readSampleSize : Word) (rice : RiceParams) :
    (rounds i : Nat) → (history signModifier : Word) → Attempt (BitReader × List Word) Unit
  | 0, _, _, _ => pure ()
  | rounds + 1, i, history, signModifier =>
    if i < outputSize then do
      let value ← reading (entropyDecodeValue readSampleSize (rice.k history) 0xFFFFFFFF)
      let decodedValue := value + signModifier
      writing (.write i (finalValue decodedValue))
      let history := rice.nextHistory history decodedValue
      if history.toInt < 128 ∧ i + 1 < outputSize then
        let blockSize ← reading (entropyDecodeValue 16 (zeroRunK history) rice.kModifierMask)
        let signModifier := if 0xFFFF < blockSize.toInt then 0 else 1
        if 0 < blockSize.toInt then
          let stop := min (i + 1 + blockSize.toNat) outputSize
          writing (fill (i + 1) stop 0)
          riceLoop outputSize readSampleSize rice rounds stop 0 signModifier
        else riceLoop outputSize readSampleSize rice rounds (i + 1) 0 signModifier
      else riceLoop outputSize readSampleSize rice rounds (i + 1) history 0
    else pure ()

def entropyRiceDecode (outputSize : Nat) (readSampleSize : Word) (rice : RiceParams) :
    Attempt (BitReader × List Word) Unit :=
  riceLoop outputSize readSampleSize rice outputSize 0 rice.initialHistory 0

def deltaRound (errorBuffer : List Word) (readsamplesize : Word) (i : Nat) : Predictor Unit := do
  let previous ← bufferOut i
  let error ← Attempt.index errorBuffer (i + 1)
  let val ← signExtend32 (previous + error) readsamplesize
  onBuffer (.write (i + 1) val)

/-- Half of what the sum of the predictor is scaled with. -/
def rounding (pq : Word) : Attempt σ (BitVec 64) := if pq = 0 then pure 0 else shl64 1 (pq - 1)

def nextSample (readsamplesize quantitization : Word) (sum : BitVec 64) (base error : Word) :
    Attempt σ Word := do
  let pq := if quantitization.toInt < 0 then 0 else quantitization
  let half ← rounding pq
  let outval ← sar64 (half + sum) pq
  signExtend32 ((outval + (base.signExtend 64 + error.signExtend 64)).setWidth 32) readsamplesize

def adaptLoop (coefNum off : Nat) (quantitization : Word) (d : Direction) :
    (pn : Nat) → (ev : Word) → Predictor Unit
  | 0, _ => pure ()
  | pn + 1, ev =>
    if d.goesOn ev then do
      let base ← bufferOut off
      let x ← bufferOut (off + coefNum - pn)
      let val := base - x
      let sign := d.sign val
      let c ← coefficient pn
      onTable (.write pn (c - sign.setWidth 16))
      let val ← sar (val * sign) quantitization
      adaptLoop coefNum off quantitization d pn (ev - val * BitVec.ofNat 32 (coefNum - pn))
    else pure ()

def predictorRound (readsamplesize quantitization : Word) (coefNum off : Nat) (errorVal : Word) :
    Predictor Unit := do
  let sum ← predictorSum coefNum off
  let base ← bufferOut off
  let outval ← nextSample readsamplesize quantitization sum base errorVal
  onBuffer (.write (off + coefNum + 1) outval)
  if 0 < errorVal.toInt then adaptLoop coefNum off quantitization upward coefNum errorVal
  else if errorVal.toInt < 0 then adaptLoop coefNum off quantitization downward coefNum errorVal
  else pure ()

def predictorDecompressFirAdapt (errorBuffer : List Word) (outputSize : Nat)
    (readsamplesize : Word) (coefNum : Nat) (quantitization : Word) : Predictor Unit := do
  let out ← Attempt.view Prod.fst
  if outputSize = 0 ∨ errorBuffer = [] ∨ out = [] then pure ()
  else
    let first ← Attempt.index errorBuffer 0
    onBuffer (.write 0 first)
    if coefNum = 0 then
      if outputSize ≤ 1 then pure ()
      else
        let errors ← Attempt.slice errorBuffer 1 outputSize
        onBuffer (.writeSlice 1 errors)
    else if coefNum = 0x1f then
      if outputSize ≤ 1 then pure ()
      else Attempt.forRange (outputSize - 1) (deltaRound errorBuffer readsamplesize)
    else
      Attempt.forRange coefNum (deltaRound errorBuffer readsamplesize)
      let errors ← Attempt.slice errorBuffer (coefNum + 1) outputSize
      Attempt.forEnum (predictorRound readsamplesize quantitization coefNum) 0 errors

def parseSubframeHeader (outputSamples outputSize bytesPerSample : Nat) :
    Attempt BitReader SubframeHeader := do
  let _ ← readbits 4
  let _ ← readbits 12
  let hasSize ← readbits 1
  let uncompressedBytes ← readbits 2
  let isNotCompressed ← readbits 1
  if hasSize ≠ 0 then
    let size ← readbits 32
    pure ⟨size.toNat, size.toNat * bytesPerSample, uncompressedBytes, isNotCompressed⟩
  else pure ⟨outputSamples, outputSize, uncompressedBytes, isNotCompressed⟩

def readMany (bits : Word) : (count : Nat) → Attempt BitReader (List Word)
  | 0 => pure []
  | count + 1 => do
    let value ← readbits bits
    let values ← readMany bits count
    pure (value :: values)

def readPredictorHeader : Attempt BitReader PredictorHeader := do
  let _ ← readbits 4
  let predQuant ← readbits 4
  let ricemod ← readbits 3
  let predNum ← readbits 5
  if predNum.toNat ≤ 32 then
    let values ← readMany 16 predNum.toNat
    let predTable := values.map (BitVec.setWidth 16) ++ List.replicate (32 - predNum.toNat) 0
    pure ⟨predQuant, ricemod, predNum.toNat, predTable⟩
  else Attempt.fail

def lowMask (uncompressedBytes : Word) : Attempt σ Word := do
  let high ← shl 0xFFFFFFFF (uncompressedBytes * 8)
  pure (~~~ high)

def withLowBytes (uncompressedBytes sample low : Word) : Attempt σ Word := do
  let mask ← lowMask uncompressedBytes
  let high ← shl sample (uncompressedBytes * 8)
  pure (high ||| (low &&& mask))

def unmix (shift leftweight : BitVec 8) (a b : Word) : Attempt σ (Word × Word) :=
  if leftweight ≠ 0 then do
    let share ← sar (b * leftweight.setWidth 32) (shift.setWidth 32)
    let r := a - share
    pure (r + b, r)
  else pure (a, b)

def deinterlace16 (numChannels numSamples : Nat) (shift leftweight : BitVec 8) : Decode Unit :=
  Attempt.forRange numSamples fun i => do
    let a ← Decode.sampleOf (·.outputsamplesBufferA) i
    let b ← Decode.sampleOf (·.outputsamplesBufferB) i
    let samples ← unmix shift leftweight a b
    Decode.writeBytes ((i * numChannels) * 2) (le16 samples.1)
    Decode.writeBytes ((i * numChannels + 1) * 2) (le16 samples.2)

def samples24 (uncompressedBytes : Word) (shift leftweight : BitVec 8) (i : Nat) :
    Decode (Word × Word) := do
  let a ← Decode.sampleOf (·.outputsamplesBufferA) i
  let b ← Decode.sampleOf (·.outputsamplesBufferB) i
  let samples ← unmix shift leftweight a b
  if 0 < uncompressedBytes then
    let lowA ← Decode.sampleOf (·.uncompressedBytesBufferA) i
    let lowB ← Decode.sampleOf (·.uncompressedBytesBufferB) i
    let left ← withLowBytes uncompressedBytes samples.1 lowA
    let right ← withLowBytes uncompressedBytes samples.2 lowB
    pure (left, right)
  else pure samples

def deinterlace24 (uncompressedBytes : Word) (numChannels numSamples : Nat)
    (shift leftweight : BitVec 8) : Decode Unit :=
  Attempt.forRange numSamples fun i => do
    let samples ← samples24 uncompressedBytes shift leftweight i
    let base := i * numChannels * 3
    Decode.writeByte base (lowByte samples.1)
    Decode.writeByte (base + 1) (lowByte (Codec.sar samples.1 8))
    Decode.writeByte (base + 2) (lowByte (Codec.sar samples.1 16))
    Decode.writeByte (base + 3) (lowByte samples.2)
    Decode.writeByte (base + 4) (lowByte (Codec.sar samples.2 8))
    Decode.writeByte (base + 5) (lowByte (Codec.sar samples.2 16))

def riceParams (dec : AlacDecoder) (hdr : PredictorHeader) : Attempt σ RiceParams := do
  let power ← shl 1 (dec.riceKModifier.setWidth 32)
  pure {
    initialHistory := dec.riceInitialHistory.setWidth 32
    kModifier := dec.riceKModifier.setWidth 32
    historyMult := hdr.ricemod * dec.riceHistoryMult.setWidth 32 / 4
    kModifierMask := power - 1 }

def decodeChannel (channelB : Bool) (outputSamples : Nat) (readsamplesize : Word)
    (hdr : PredictorHeader) : Decode Unit := do
  let dec ← Attempt.view FrameState.dec
  let rice ← riceParams dec hdr
  Attempt.focus (fun s => (s.reader, s.dec.predicterrorBuffer channelB)) (.setErrors channelB)
    (entropyRiceDecode outputSamples readsamplesize rice)
  let prederr ← Attempt.view fun s => s.dec.predicterrorBuffer channelB
  Attempt.focus (fun s => (s.dec.outputsamplesBuffer channelB, hdr.predTable))
    (.setSamples channelB)
    (predictorDecompressFirAdapt prederr outputSamples readsamplesize hdr.predNum hdr.predQuant)

def readSample16 (sampleSize : Word) : Attempt BitReader Word := do
  let v ← readbits sampleSize
  signExtend32 v sampleSize

def readSample24 (sampleSize : Word) : Attempt BitReader Word := do
  let v ← readbits 16
  let high ← shl v (sampleSize - 16)
  let low ← readbits (sampleSize - 16)
  pure (signExtend24 (high ||| low))

def fillBuffer (count : Nat) (read : Attempt BitReader Word) :
    Attempt (BitReader × List Word) Unit :=
  Attempt.forRange count fun i => do
    let v ← reading read
    writing (.write i v)

/-- The elements of the slice are written one by one, after its bound has been checked. -/
def fillSlice (bits : Word) (count : Nat) : Attempt (BitReader × List Word) Unit := do
  let buffer ← Attempt.view Prod.snd
  if count ≤ buffer.length then fillBuffer count (readbits bits) else Attempt.fail

def fillBuffers (count : Nat) (read : Attempt BitReader Word) :
    Attempt (BitReader × List Word × List Word) Unit :=
  Attempt.forRange count fun i => do
    let a ← reading read
    writingA (.write i a)
    let b ← reading read
    writingB (.write i b)

def fillBuffersTogether (count : Nat) (read : Attempt BitReader Word) :
    Attempt (BitReader × List Word × List Word) Unit :=
  Attempt.forRange count fun i => do
    let a ← reading read
    let b ← reading read
    writingA (.write i a)
    writingB (.write i b)

def readMonoLow (hdr : SubframeHeader) : Decode Unit :=
  if 0 < hdr.uncompressedBytes then
    .focus (fun s => (s.reader, s.dec.uncompressedBytesBufferA)) .setMonoLow
      (fillSlice (hdr.uncompressedBytes * 8) hdr.outputSamples)
  else pure ()

def readMonoVerbatim (outputSamples : Nat) (sampleSize : Word) : Decode Unit :=
  .focus (fun s => (s.reader, s.dec.outputsamplesBufferA)) .setMono
    (if sampleSize ≤ 16 then fillBuffer outputSamples (readSample16 sampleSize)
      else fillBuffer outputSamples (readSample24 sampleSize))

def readMono (hdr : SubframeHeader) (readsamplesize : Word) : Decode Unit :=
  if hdr.isNotCompressed = 0 then do
    let _ ← Decode.read (readbits 8)
    let _ ← Decode.read (readbits 8)
    let predictor ← Decode.read readPredictorHeader
    readMonoLow hdr
    decodeChannel false hdr.outputSamples readsamplesize predictor
  else do
    let dec ← Attempt.view FrameState.dec
    readMonoVerbatim hdr.outputSamples dec.sampleSize

def monoSample24 (hdr : SubframeHeader) (i : Nat) : Decode Word := do
  let sample ← Decode.sampleOf (·.outputsamplesBufferA) i
  if 0 < hdr.uncompressedBytes ∧ hdr.isNotCompressed = 0 then
    let low ← Decode.sampleOf (·.uncompressedBytesBufferA) i
    withLowBytes hdr.uncompressedBytes sample low
  else pure sample

def writeMono24 (numChannels : Nat) (hdr : SubframeHeader) : Decode Unit :=
  Attempt.forRange hdr.outputSamples fun i => do
    let sample ← monoSample24 hdr i
    let off := i * numChannels * 3
    Decode.writeByte off (lowByte sample)
    Decode.writeByte (off + 1) (lowByte (Codec.sar sample 8))
    Decode.writeByte (off + 2) (lowByte (Codec.sar sample 16))

def writeMono (hdr : SubframeHeader) : Decode Bool := do
  let dec ← Attempt.view FrameState.dec
  if dec.sampleSizeConfig = 16 then
    writeMono16 dec.numChannels.toNat hdr
    pure true
  else if dec.sampleSizeConfig = 24 then
    writeMono24 dec.numChannels.toNat hdr
    pure true
  else pure false

def openSubframe : Decode (SubframeHeader × Verdict) := do
  let s ← Attempt.view id
  let outputSamples := s.dec.maxSamplesPerFrame.toNat
  let bytesPerSample := s.dec.bytesPerSample.toNat
  let hdr ← Decode.read (parseSubframeHeader outputSamples
    (outputSamples * bytesPerSample) bytesPerSample)
  pure (hdr, hdr.verdict s.dec s.output.length)

def decodeMono : Decode (Bool × Nat) := do
  let opened ← openSubframe
  match opened.2 with
  | .refused => pure (false, 0)
  | .empty => pure (true, 0)
  | .decodes =>
    let dec ← Attempt.view FrameState.dec
    readMono opened.1 (dec.sampleSize - opened.1.uncompressedBytes * 8)
    let ok ← writeMono opened.1
    pure (ok, opened.1.outputSize)

def readStereoLow (hdr : SubframeHeader) : Decode Unit :=
  if 0 < hdr.uncompressedBytes then
    .focus (fun s => (s.reader, s.dec.uncompressedBytesBufferA, s.dec.uncompressedBytesBufferB))
      .setStereoLow
      (fillBuffers hdr.outputSamples (readbits (hdr.uncompressedBytes * 8)))
  else pure ()

def readStereoVerbatim (outputSamples : Nat) (sampleSize : Word) : Decode Unit :=
  .focus (fun s => (s.reader, s.dec.outputsamplesBufferA, s.dec.outputsamplesBufferB)) .setStereo
    (if sampleSize ≤ 16 then fillBuffersTogether outputSamples (readSample16 sampleSize)
      else fillBuffers outputSamples (readSample24 sampleSize))

def readStereo (hdr : SubframeHeader) (readsamplesize : Word) : Decode (BitVec 8 × BitVec 8) :=
  if hdr.isNotCompressed = 0 then do
    let shift ← Decode.read (readbits 8)
    let leftweight ← Decode.read (readbits 8)
    let hdrA ← Decode.read readPredictorHeader
    let hdrB ← Decode.read readPredictorHeader
    readStereoLow hdr
    decodeChannel false hdr.outputSamples readsamplesize hdrA
    decodeChannel true hdr.outputSamples readsamplesize hdrB
    pure (shift.setWidth 8, leftweight.setWidth 8)
  else do
    let dec ← Attempt.view FrameState.dec
    readStereoVerbatim hdr.outputSamples dec.sampleSize
    pure (0, 0)

def writeStereo (hdr : SubframeHeader) (mix : BitVec 8 × BitVec 8) : Decode Bool := do
  let dec ← Attempt.view FrameState.dec
  if dec.sampleSizeConfig = 16 then
    deinterlace16 dec.numChannels.toNat hdr.outputSamples mix.1 mix.2
    pure true
  else if dec.sampleSizeConfig = 24 then
    deinterlace24 hdr.uncompressedBytes dec.numChannels.toNat hdr.outputSamples mix.1 mix.2
    pure true
  else pure false

def decodeStereo : Decode (Bool × Nat) := do
  let opened ← openSubframe
  match opened.2 with
  | .refused => pure (false, 0)
  | .empty => pure (true, 0)
  | .decodes =>
    let dec ← Attempt.view FrameState.dec
    let mix ← readStereo opened.1 (dec.sampleSize - opened.1.uncompressedBytes * 8 + 1)
    let ok ← writeStereo opened.1 mix
    pure (ok, opened.1.outputSize)

def decodeElement (channels : Word) : Decode (Bool × Nat) := do
  let dec ← Attempt.view FrameState.dec
  if channels = 0 then
    if dec.numChannels ≠ 1 then pure (false, 0) else decodeMono
  else if channels = 1 then
    if dec.numChannels ≠ 2 then pure (false, 0) else decodeStereo
  else pure (false, 0)

def decodeBody : Decode Nat := do
  let s ← Attempt.view id
  if s.dec.maxSamplesPerFrame = 0 ∨ s.dec.bytesPerSample.toInt ≤ 0 then pure 0
  else
    let channels ← Decode.read (readbits 3)
    if s.output.length < s.dec.maxSamplesPerFrame.toNat * s.dec.bytesPerSample.toNat then pure 0
    else
      let result ← decodeElement channels
      pure (if result.1 then result.2 else 0)

/-- Decode one frame, as `AlacDecoder.decodeFrame` does without the checks. -/
def decodeFrame (dec : AlacDecoder) (input output : List UInt8) :
    AlacDecoder × List UInt8 × Option Nat :=
  let run := decodeBody ⟨dec, BitReader.new input, output⟩
  (run.2.dec, run.2.output, run.1)

/-- The position of a reader inside its byte. -/
abbrev Small (r : BitReader) : Prop := r.bit.toNat < 8

section Shift

variable {w : Nat} {n : Word}

theorem shifted_guarded (shift : Nat → BitVec w) (n : Word) (s : σ) :
    Guarded (n.toNat < w) (shifted shift n) (pure (shift (n.toNat % w))) s := by
  rw [shifted]
  constructor
  · intro inRange
    rw [if_pos inRange, Nat.mod_eq_of_lt inRange]
  · intro outOfRange
    rw [if_neg outOfRange]
    rfl

theorem shifted_eq (shift : Nat → BitVec w) (inRange : n.toNat < w) :
    (shifted shift n : Attempt σ (BitVec w)) = pure (shift (n.toNat % w)) :=
  funext fun s => (shifted_guarded shift n s).1 inRange

theorem shl_eq (x : Word) (inRange : n.toNat < 32) :
    (shl x n : Attempt σ Word) = pure (Codec.shl x n) :=
  shifted_eq _ inRange

theorem shr_eq (x : Word) (inRange : n.toNat < 32) :
    (shr x n : Attempt σ Word) = pure (Codec.shr x n) :=
  shifted_eq _ inRange

theorem sar_eq (x : Word) (inRange : n.toNat < 32) :
    (sar x n : Attempt σ Word) = pure (Codec.sar x n) :=
  shifted_eq _ inRange

/-- A shift by what is missing to a full word. -/
theorem toNat_missing {bits : Word} (short : bits.toNat ≤ 32) :
    ((32 : Word) - bits).toNat = 32 - bits.toNat :=
  BitVec.toNat_sub_of_le (show bits ≤ 32 from short)

theorem signExtend32_guarded (val : Word) {bits : Word} (short : bits.toNat ≤ 32) (s : σ) :
    Guarded (0 < bits.toNat) (signExtend32 val bits) (pure (Codec.signExtend32 val bits)) s := by
  have both : Guarded (((32 : Word) - bits).toNat < 32 ∧ ((32 : Word) - bits).toNat < 32)
      (signExtend32 val bits) (pure (Codec.signExtend32 val bits)) s :=
    .value (shifted_guarded (val <<< ·) _ s) (shifted_guarded _ _ s)
  apply both.congr
  rw [toNat_missing short]
  omega

end Shift

section Readers

variable {r : BitReader}

theorem small_readbits16 (r : BitReader) (bits : Word) : Small (r.readbits16 bits).2 := by
  show (r.bit + bits &&& 7).toNat < 8
  rw [BitVec.toNat_and]
  exact Nat.lt_of_le_of_lt Nat.and_le_right (by decide)

@[simp] theorem small_readbits (r : BitReader) (bits : Word) : Small (r.readbits bits).2 := by
  rw [BitReader.readbits]
  split
  · exact small_readbits16 _ _
  · exact small_readbits16 _ _

theorem small_readbit (r : BitReader) : Small r.readbit.2 := by
  show ((r.bit + 1) % 8).toNat < 8
  rw [BitVec.toNat_umod]
  exact Nat.mod_lt _ (by decide)

theorem small_unreadbits (r : BitReader) (bits : Word) : Small (r.unreadbits bits) := by
  show (BitVec.ofInt 32 ((r.pos * 8 + r.bit.toNat - bits.toNat : Int) % 8)).toNat < 8
  rw [BitVec.toNat_ofInt]
  omega

theorem readbits16_run (small : Small r) {bits : Word} (short : bits.toNat ≤ 24) :
    readbits16 bits r = (some (r.readbits16 bits).1, (r.readbits16 bits).2) := by
  have amount : ((24 : Word) - bits).toNat < 32 := by
    rw [BitVec.toNat_sub_of_le (show bits ≤ 24 from short)]
    exact Nat.lt_of_le_of_lt (Nat.sub_le _ _) (by decide)
  rw [readbits16, view_bind]
  dsimp only [id]
  rw [shl_eq _ (by omega), pure_bind, shr_eq _ amount, pure_bind]
  rfl

theorem readbits_run (small : Small r) {bits : Word} (short : bits.toNat ≤ 32) :
    readbits bits r = (some (r.readbits bits).1, (r.readbits bits).2) := by
  rw [readbits, BitReader.readbits]
  split
  · rename_i long
    have long : 16 < bits.toNat := long
    have rest : (bits - 16).toNat = bits.toNat - 16 :=
      BitVec.toNat_sub_of_le (show (16 : Word) ≤ bits from Nat.le_of_lt long)
    rw [bind_of_some (readbits16_run small (by decide)), shl_eq _ (by omega), pure_bind,
      bind_of_some (readbits16_run (small_readbits16 _ _) (by omega))]
    rfl
  · rename_i whole
    have whole : ¬ 16 < bits.toNat := whole
    exact readbits16_run small (by omega)

theorem readbits_bind {α : Type} (small : Small r) {bits : Word} (short : bits.toNat ≤ 32)
    (f : Word → Attempt BitReader α) :
    (readbits bits >>= f) r = f (r.readbits bits).1 (r.readbits bits).2 :=
  bind_of_some (readbits_run small short) f

theorem readbit_run (small : Small r) : readbit r = (some r.readbit.1, r.readbit.2) := by
  rw [readbit, view_bind]
  dsimp only [id]
  rw [shl_eq _ (by omega), pure_bind]
  rfl

theorem readUnary_run (room : Nat) (x : Word) (small : Small r) :
    readUnary room x r = (some (Codec.readUnary room x r).1, (Codec.readUnary room x r).2) := by
  induction room generalizing x r with
  | zero => rfl
  | succ room ih =>
    rw [readUnary, Codec.readUnary, bind_of_some (readbit_run small)]
    dsimp only
    split
    · exact ih (x + 1) (small_readbit r)
    · rfl

theorem small_readUnary (room : Nat) (x : Word) (small : Small r) :
    Small (Codec.readUnary room x r).2 := by
  induction room generalizing x r with
  | zero => exact small
  | succ room ih =>
    rw [Codec.readUnary]
    dsimp only
    split
    · exact ih (x + 1) (small_readbit r)
    · exact small_readbit r

theorem small_entropyDecodeValue (size k mask : Word) (small : Small r) :
    Small (Codec.entropyDecodeValue size k mask r).2 := by
  rw [Codec.entropyDecodeValue]
  dsimp only
  split
  · exact small_readbits _ _
  · split
    · split
      · exact small_readbits _ _
      · exact small_unreadbits _ _
    · exact small_readUnary _ _ small

end Readers

/-- What the shifts of a coded value need: an escape code has bits, and the parameter of
another code is below the width of a word. -/
def EntropyFits (readSampleSize k : Word) (r : BitReader) : Prop :=
  if riceThreshold < (Codec.readUnary (riceThreshold + 1) 0 r).1.toNat then
    0 < readSampleSize.toNat
  else k.toNat < 32

theorem entropyDecodeValue_guarded {size : Word} (short : size.toNat ≤ 32) (k mask : Word)
    {r : BitReader} (small : Small r) :
    Guarded (EntropyFits size k r) (entropyDecodeValue size k mask)
      (.total (Codec.entropyDecodeValue size k mask)) r := by
  have unary := readUnary_run (riceThreshold + 1) 0 small
  have behind := small_readUnary (riceThreshold + 1) 0 small
  have missing := toNat_missing short
  by_cases escaped : riceThreshold < (Codec.readUnary (riceThreshold + 1) 0 r).1.toNat
  · rw [EntropyFits, if_pos escaped]
    constructor
    · intro positive
      rw [entropyDecodeValue, bind_of_some unary, if_pos escaped, readbits_bind behind short,
        shr_eq _ (by omega), total_run, Codec.entropyDecodeValue]
      dsimp only
      rw [if_pos escaped]
      rfl
    · intro zero
      rw [entropyDecodeValue, bind_of_some unary, if_pos escaped, readbits_bind behind short,
        shr, shifted, if_neg (by omega)]
      rfl
  · rw [EntropyFits, if_neg escaped]
    constructor
    · intro below
      rw [entropyDecodeValue, bind_of_some unary, if_neg escaped, total_run,
        Codec.entropyDecodeValue]
      dsimp only
      rw [if_neg escaped]
      split
      · rw [readbits_bind behind (by omega), shl_eq _ below, pure_bind]
        split <;> rfl
      · rfl
    · intro wide
      have several : k ≠ 1 := by
        rintro rfl
        exact wide (by decide)
      rw [entropyDecodeValue, bind_of_some unary, if_neg escaped, if_pos several]
      -- whatever `readbits` makes of so many bits, `1 << k` panics behind it
      apply bind_panics
      intro _ _
      rw [shl, shifted, if_neg wide]
      rfl

/-- What the shifts of a round of the Rice decoder need. -/
def RoundFits (readSampleSize : Word) (rice : RiceParams) (round : RiceRound) : Prop :=
  EntropyFits readSampleSize (rice.k round.history) round.reader ∧
    (round.HasRun readSampleSize rice →
      EntropyFits 16 (zeroRunK (round.nextHistory readSampleSize rice))
        (round.read readSampleSize rice).2)

section Rice

theorem reading_guarded {β : Type} {p : Prop} {c : Attempt BitReader Word}
    {read : BitReader → Word × BitReader} {r : BitReader} (part : Guarded p c (.total read) r)
    (out : β) : Guarded p (reading c) (Codec.reading read) (r, out) := by
  have focused : Guarded p (reading c) (.focus Prod.fst (fun r s => (r, s.2)) (.total read))
      (r, out) := part.focus
  exact focused

theorem of_reading {β : Type} {read : BitReader → Word × BitReader} {r : BitReader} {out : β}
    {value : Word} {s : BitReader × β} (run : Codec.reading read (r, out) = (some value, s)) :
    value = (read r).1 ∧ s = ((read r).2, out) := by
  cases run
  exact ⟨rfl, rfl⟩

/-- What is written beside a reader leaves the reader alone. -/
theorem fst_of_writing {m : Attempt (List Word) Unit} {s t : BitReader × List Word} {u : Unit}
    (run : writing m s = (some u, t)) : t.1 = s.1 := by
  have state := congrArg Prod.snd run
  exact (congrArg Prod.fst state).symm

variable {size : Word} (short : size.toNat ≤ 32) (rice : RiceParams)
include short

theorem riceLoop_guarded {outputSize : Nat} (rounds i count : Nat) (left : i + count = outputSize)
    (enough : count ≤ rounds) (history signModifier : Word) {r : BitReader} (small : Small r)
    (buffer : List Word) :
    Guarded (∀ round ∈ riceRounds size rice count history signModifier r, RoundFits size rice round)
      (riceLoop outputSize size rice rounds i history signModifier)
      (Codec.riceLoop outputSize size rice rounds i history signModifier) (r, buffer) := by
  induction rounds generalizing i count history signModifier r buffer with
  | zero =>
    obtain rfl : count = 0 := by omega
    exact (Guarded.of_eq rfl).congr (by simp [riceRounds])
  | succ rounds ih =>
    cases count with
    | zero =>
      have finished : ¬ i < outputSize := by omega
      rw [riceLoop, Codec.riceLoop, if_neg finished, if_neg finished]
      exact (Guarded.of_eq rfl).congr (by simp [riceRounds])
    | succ count =>
      have more : i < outputSize := by omega
      obtain ⟨round, rfl, rfl, rfl, rfl⟩ : ∃ round : RiceRound, count = round.left ∧
          history = round.history ∧ signModifier = round.signModifier ∧ r = round.reader :=
        ⟨⟨count, history, signModifier, r⟩, rfl, rfl, rfl, rfl⟩
      have behind : Small (round.read size rice).2 := small_entropyDecodeValue _ _ _ small
      rw [riceRounds, List.forall_mem_cons, RoundFits, and_assoc, riceLoop, Codec.riceLoop,
        if_pos more, if_pos more]
      refine .bind (reading_guarded (entropyDecodeValue_guarded short _ _ small) buffer) ?_
      intro value s read
      obtain ⟨rfl, rfl⟩ : value = (round.read size rice).1 ∧
        s = ((round.read size rice).2, buffer) := of_reading read
      refine .bind_same rfl ?_
      rintro _ ⟨r', buffer'⟩ wrote
      obtain rfl : r' = (round.read size rice).2 := fst_of_writing wrote
      refine .ite (fun run => ?_) (fun noRun => ?_)
      · have hasRun : round.HasRun size rice := ⟨run.1, by omega⟩
        have behind' : Small (round.run size rice).2 := small_entropyDecodeValue _ _ _ behind
        have covered := runLength_le (round.run size rice).1 round.left
        rw [if_pos hasRun]
        refine (Guarded.bind (reading_guarded (entropyDecodeValue_guarded (by decide) _ _ behind)
          buffer') ?_).congr (and_congr_left' ⟨fun fits _ => fits, fun fits => fits hasRun⟩)
        intro value s read
        obtain ⟨rfl, rfl⟩ : value = (round.run size rice).1 ∧
          s = ((round.run size rice).2, buffer') := of_reading read
        refine .ite (fun positive => ?_) (fun nothing => ?_)
        · have stops : min (i + 1 + (round.run size rice).1.toNat) outputSize =
              i + 1 + runLength (round.run size rice).1 round.left := by
            rw [runLength, if_pos positive]
            omega
          refine .bind_same rfl ?_
          rintro _ ⟨r', buffer'⟩ wrote
          obtain rfl : r' = (round.run size rice).2 := fst_of_writing wrote
          exact ih _ (round.left - runLength (round.run size rice).1 round.left)
            (by rw [stops]; omega) (by omega) 0 _ behind' buffer'
        · have none : runLength (round.run size rice).1 round.left = 0 := if_neg nothing
          exact ih _ (round.left - runLength (round.run size rice).1 round.left)
            (by omega) (by omega) 0 _ behind' buffer'
      · have noRun' : ¬ round.HasRun size rice :=
          fun hasRun => noRun ⟨hasRun.1, by have := hasRun.2; omega⟩
        rw [if_neg noRun']
        exact (ih _ _ (by omega) (by omega) _ 0 behind buffer').congr
          ⟨fun fits => ⟨fun hasRun => absurd hasRun noRun', fits⟩, And.right⟩

/-- The Rice decoder panics exactly if a round needs a shift out of range. -/
theorem entropyRiceDecode_guarded (outputSize : Nat) {r : BitReader} (small : Small r)
    (buffer : List Word) :
    Guarded (∀ round ∈ riceRounds size rice outputSize rice.initialHistory 0 r,
        RoundFits size rice round)
      (entropyRiceDecode outputSize size rice) (Codec.entropyRiceDecode outputSize size rice)
      (r, buffer) :=
  riceLoop_guarded short rice outputSize 0 outputSize (Nat.zero_add _) (Nat.le_refl _) _ _ small
    buffer

end Rice

end Shairplay.Codec.Checked
