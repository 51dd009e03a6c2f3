import Shairplay.Codec.Alac.Rice
import Shairplay.Codec.Alac.Predictor

/-!
# What a frame holds

The samples of a frame are a function of its bits and of the settings of the decoder:
`monoContent` and `stereoContent` say which. The code finds these samples at the front
of its buffers after it has read the frame, whatever the buffers held before.

The one exception is visible in `stereoContent`: the uncompressed low bytes of a frame
that stores its samples verbatim are what the buffers held before.
-/

namespace Shairplay.Codec

open Lib Lib.Attempt

namespace AlacDecoder

/-- The decoder with all buffers zeroed. -/
def blank (dec : AlacDecoder) : AlacDecoder :=
  { dec with
    predicterrorBufferA := List.replicate dec.predicterrorBufferA.length 0
    predicterrorBufferB := List.replicate dec.predicterrorBufferB.length 0
    outputsamplesBufferA := List.replicate dec.outputsamplesBufferA.length 0
    outputsamplesBufferB := List.replicate dec.outputsamplesBufferB.length 0
    uncompressedBytesBufferA := List.replicate dec.uncompressedBytesBufferA.length 0
    uncompressedBytesBufferB := List.replicate dec.uncompressedBytesBufferB.length 0 }

/-- A decoder that `set_info` has enabled: a supported format, and buffers for a frame. -/
@[mk_iff] structure Ready (dec : AlacDecoder) : Prop where
  sampleSize : dec.sampleSizeConfig = 16 ∨ dec.sampleSizeConfig = 24
  channels : dec.numChannels = 1 ∨ dec.numChannels = 2
  bytes : dec.bytesPerSample = dec.sampleSize.sdiv 8 * dec.numChannels
  frames : dec.maxSamplesPerFrame ≠ 0
  predicterrorA : dec.predicterrorBufferA.length = dec.maxSamplesPerFrame.toNat
  predicterrorB : dec.predicterrorBufferB.length = dec.maxSamplesPerFrame.toNat
  outputsamplesA : dec.outputsamplesBufferA.length = dec.maxSamplesPerFrame.toNat
  outputsamplesB : dec.outputsamplesBufferB.length = dec.maxSamplesPerFrame.toNat
  uncompressedA : dec.uncompressedBytesBufferA.length = dec.maxSamplesPerFrame.toNat
  uncompressedB : dec.uncompressedBytesBufferB.length = dec.maxSamplesPerFrame.toNat

theorem ready_blank {dec : AlacDecoder} : Ready dec.blank ↔ Ready dec := by
  simp [ready_iff, AlacDecoder.blank, AlacDecoder.sampleSize]

theorem Ready.blank {dec : AlacDecoder} (ready : Ready dec) : Ready dec.blank :=
  ready_blank.mpr ready

theorem Ready.congr {dec dec' : AlacDecoder} (ready : Ready dec) (same : dec'.blank = dec.blank) :
    Ready dec' :=
  ready_blank.mp (same ▸ ready.blank)

theorem maxSamplesPerFrame_congr {dec dec' : AlacDecoder} (same : dec'.blank = dec.blank) :
    dec'.maxSamplesPerFrame = dec.maxSamplesPerFrame := by
  have field := congrArg AlacDecoder.maxSamplesPerFrame same
  exact field

theorem Ready.predicterror {dec : AlacDecoder} (ready : Ready dec) (channelB : Bool) :
    (dec.predicterrorBuffer channelB).length = dec.maxSamplesPerFrame.toNat := by
  cases channelB
  · exact ready.predicterrorA
  · exact ready.predicterrorB

theorem Ready.outputsamples {dec : AlacDecoder} (ready : Ready dec) (channelB : Bool) :
    (dec.outputsamplesBuffer channelB).length = dec.maxSamplesPerFrame.toNat := by
  cases channelB
  · exact ready.outputsamplesA
  · exact ready.outputsamplesB

/-- Buffers of the same length do not show in the blank decoder. -/
theorem blank_setPredicterrorBuffer {dec : AlacDecoder} {channelB : Bool} {buffer : List Word}
    (same : buffer.length = (dec.predicterrorBuffer channelB).length) :
    (dec.setPredicterrorBuffer channelB buffer).blank = dec.blank := by
  cases channelB
  · exact congrArg (fun n => { dec.blank with predicterrorBufferA := List.replicate n 0 }) same
  · exact congrArg (fun n => { dec.blank with predicterrorBufferB := List.replicate n 0 }) same

theorem blank_setOutputsamplesBuffer {dec : AlacDecoder} {channelB : Bool} {buffer : List Word}
    (same : buffer.length = (dec.outputsamplesBuffer channelB).length) :
    (dec.setOutputsamplesBuffer channelB buffer).blank = dec.blank := by
  cases channelB
  · exact congrArg (fun n => { dec.blank with outputsamplesBufferA := List.replicate n 0 }) same
  · exact congrArg (fun n => { dec.blank with outputsamplesBufferB := List.replicate n 0 }) same

@[simp] theorem outputsamplesBuffer_setPredicterrorBuffer (dec : AlacDecoder)
    (channelB channelB' : Bool) (buffer : List Word) :
    (dec.setPredicterrorBuffer channelB buffer).outputsamplesBuffer channelB' =
      dec.outputsamplesBuffer channelB' := by
  cases channelB <;> rfl

@[simp] theorem predicterrorBuffer_setPredicterrorBuffer (dec : AlacDecoder) (channelB : Bool)
    (buffer : List Word) :
    (dec.setPredicterrorBuffer channelB buffer).predicterrorBuffer channelB = buffer := by
  cases channelB <;> rfl

end AlacDecoder

open AlacDecoder (Ready)

def predictorHeader (r : BitReader) : PredictorHeader × BitReader :=
  let (_, r) := r.readbits 4
  let (predQuant, r) := r.readbits 4
  let (ricemod, r) := r.readbits 3
  let (predNum, r) := r.readbits 5
  let (values, r) := readMany 16 predNum.toNat r
  (⟨predQuant, ricemod, predNum.toNat,
    values.map (BitVec.setWidth 16) ++ List.replicate (32 - predNum.toNat) 0⟩, r)

/-- A field of up to 16 bits holds no more than its bits. -/
theorem readbits_lt (r : BitReader) (bits : Word) (short : bits.toNat ≤ 16) :
    (r.readbits bits).1.toNat < 2 ^ bits.toNat := by
  have small : ¬ (16 : Word) < bits := by
    rw [BitVec.lt_def]
    exact Nat.not_lt.mpr short
  have shift : ((24 : Word) - bits).toNat % 32 = 24 - bits.toNat := by
    rw [BitVec.toNat_sub_of_le (show bits ≤ 24 by rw [BitVec.le_def]; exact short.trans (by decide))]
    exact Nat.mod_eq_of_lt (by simp; omega)
  have limit (x : Nat) : x &&& (0x00ffffff : Word).toNat < 2 ^ (24 - bits.toNat) * 2 ^ bits.toNat := by
    rw [← pow_add, Nat.sub_add_cancel (by omega)]
    exact Nat.lt_of_le_of_lt Nat.and_le_right (by decide)
  rw [BitReader.readbits, if_neg small, BitReader.readbits16]
  simp only [shr, shift, BitVec.toNat_ushiftRight, BitVec.toNat_and, Nat.shiftRight_eq_div_pow]
  exact Nat.div_lt_of_lt_mul (limit _)

/-- The field of the order has five bits. -/
theorem predNum_lt (r : BitReader) : (predictorHeader r).1.predNum < 32 :=
  readbits_lt _ 5 (by decide)

theorem length_predTable (r : BitReader) : (predictorHeader r).1.predTable.length = 32 := by
  have order := predNum_lt r
  simp only [predictorHeader, readMany, List.length_append, List.length_map, length_produce,
    List.length_replicate] at order ⊢
  omega

/-- The table of coefficients has room for every order. -/
theorem readPredictorHeader_run (r : BitReader) :
    readPredictorHeader r = (some (predictorHeader r).1, (predictorHeader r).2) := by
  have order : ((((r.readbits 4).2.readbits 4).2.readbits 3).2.readbits 5).1.toNat ≤ 32 :=
    Nat.le_of_lt (readbits_lt _ 5 (by decide))
  simp only [readPredictorHeader, total_bind, if_pos order]
  rfl

/-- The samples of the channels, their uncompressed low bytes, and how to unmix them. -/
structure Content where
  a : List Word
  b : List Word
  lowA : List Word
  lowB : List Word
  shift : BitVec 8
  leftweight : BitVec 8

def channelSamples (dec : AlacDecoder) (count : Nat) (readsamplesize : Word)
    (hdr : PredictorHeader) (r : BitReader) : List Word × BitReader :=
  let (errors, r) := channelErrors readsamplesize (dec.riceParams hdr) count r
  (predicted readsamplesize hdr.predQuant hdr.predNum hdr.predTable errors, r)

def monoSize (dec : AlacDecoder) (hdr : SubframeHeader) : Word :=
  dec.sampleSize - hdr.uncompressedBytes * 8

def stereoSize (dec : AlacDecoder) (hdr : SubframeHeader) : Word :=
  dec.sampleSize - hdr.uncompressedBytes * 8 + 1

/-- Two values one after the other. -/
def readPair (read : BitReader → Word × BitReader) (r : BitReader) : (Word × Word) × BitReader :=
  let (a, r) := read r
  let (b, r) := read r
  ((a, b), r)

/-- The sample a verbatim frame stores. -/
def verbatim (sampleSize : Word) (r : BitReader) : Word × BitReader :=
  if sampleSize ≤ 16 then readSample16 sampleSize r else readSample24 sampleSize r

theorem verbatim_eq (sampleSize : Word) : verbatim sampleSize =
    if sampleSize ≤ 16 then readSample16 sampleSize else readSample24 sampleSize := by
  funext r
  rw [verbatim]
  split <;> rfl

def skipInterlacing (r : BitReader) : BitReader := ((r.readbits 8).2.readbits 8).2

/-- The header of the channel of a compressed mono frame. -/
def monoPredictor (r : BitReader) : PredictorHeader × BitReader :=
  predictorHeader (skipInterlacing r)

/-- The headers of the channels of a compressed stereo frame. -/
def stereoPredictors (r : BitReader) : (PredictorHeader × PredictorHeader) × BitReader :=
  let (hdrA, r) := predictorHeader (skipInterlacing r)
  let (hdrB, r) := predictorHeader r
  ((hdrA, hdrB), r)

/-- The uncompressed low bytes of a compressed mono frame. -/
def monoLow (hdr : SubframeHeader) (r : BitReader) : List Word × BitReader :=
  if 0 < hdr.uncompressedBytes then readMany (hdr.uncompressedBytes * 8) hdr.outputSamples r
  else ([], r)

/-- The uncompressed low bytes of a compressed stereo frame. -/
def stereoLow (hdr : SubframeHeader) (r : BitReader) : List (Word × Word) × BitReader :=
  if 0 < hdr.uncompressedBytes then
    produce (readPair fun r => r.readbits (hdr.uncompressedBytes * 8)) hdr.outputSamples r
  else ([], r)

def monoContent (dec : AlacDecoder) (hdr : SubframeHeader) (r : BitReader) : Content :=
  if hdr.isNotCompressed = 0 then
    let predictor := monoPredictor r
    let low := monoLow hdr predictor.2
    { a := (channelSamples dec hdr.outputSamples (monoSize dec hdr) predictor.1 low.2).1
      b := [], lowA := low.1, lowB := [], shift := 0, leftweight := 0 }
  else
    { a := (produce (verbatim dec.sampleSize) hdr.outputSamples r).1
      b := [], lowA := [], lowB := [], shift := 0, leftweight := 0 }

/-- The content of a stereo frame. A verbatim frame has no low bytes of its own. -/
def stereoContent (dec : AlacDecoder) (hdr : SubframeHeader) (r : BitReader) : Content :=
  if hdr.isNotCompressed = 0 then
    let predictors := stereoPredictors r
    let low := stereoLow hdr predictors.2
    let a := channelSamples dec hdr.outputSamples (stereoSize dec hdr) predictors.1.1 low.2
    let b := channelSamples dec hdr.outputSamples (stereoSize dec hdr) predictors.1.2 a.2
    { a := a.1, b := b.1, lowA := low.1.map Prod.fst, lowB := low.1.map Prod.snd
      shift := (r.readbits 8).1.setWidth 8
      leftweight := ((r.readbits 8).2.readbits 8).1.setWidth 8 }
  else
    let pairs := produce (readPair (verbatim dec.sampleSize)) hdr.outputSamples r
    { a := pairs.1.map Prod.fst, b := pairs.1.map Prod.snd
      lowA := dec.uncompressedBytesBufferA.take hdr.outputSamples
      lowB := dec.uncompressedBytesBufferB.take hdr.outputSamples
      shift := 0, leftweight := 0 }

def monoOrders (hdr : SubframeHeader) (r : BitReader) : List Nat :=
  if hdr.isNotCompressed = 0 then [(monoPredictor r).1.predNum] else []

def stereoOrders (hdr : SubframeHeader) (r : BitReader) : List Nat :=
  if hdr.isNotCompressed = 0 then
    [(stereoPredictors r).1.1.predNum, (stereoPredictors r).1.2.predNum]
  else []

def OrdersFit (orders : List Nat) (count : Nat) : Prop := ∀ m ∈ orders, OrderFits m count

instance (orders : List Nat) (count : Nat) : Decidable (OrdersFit orders count) :=
  inferInstanceAs (Decidable (∀ m ∈ orders, OrderFits m count))

/-- Only the settings of the decoder matter for the samples of a channel. -/
theorem channelSamples_congr {dec dec' : AlacDecoder} (same : dec'.blank = dec.blank)
    (count : Nat) (readsamplesize : Word) (hdr : PredictorHeader) (r : BitReader) :
    channelSamples dec' count readsamplesize hdr r =
      channelSamples dec count readsamplesize hdr r := by
  have samples := congrArg (fun d : AlacDecoder => channelSamples d count readsamplesize hdr r) same
  exact samples

theorem length_channelSamples (dec : AlacDecoder) (count : Nat) (readsamplesize : Word)
    (hdr : PredictorHeader) (r : BitReader) :
    (channelSamples dec count readsamplesize hdr r).1.length = count := by
  rw [channelSamples]
  dsimp only
  rw [length_predicted, length_channelErrors]

theorem length_monoContent (dec : AlacDecoder) (hdr : SubframeHeader) (r : BitReader) :
    (monoContent dec hdr r).a.length = hdr.outputSamples := by
  rw [monoContent]
  split
  · exact length_channelSamples ..
  · exact length_produce ..

theorem length_stereoContent (dec : AlacDecoder) (hdr : SubframeHeader) (r : BitReader) :
    (stereoContent dec hdr r).a.length = hdr.outputSamples ∧
      (stereoContent dec hdr r).b.length = hdr.outputSamples := by
  rw [stereoContent]
  split
  · exact ⟨length_channelSamples .., length_channelSamples ..⟩
  · simp

namespace Decode

variable {α β : Type} {s : FrameState}

theorem read_bind {m : Attempt BitReader α} {a : α} {r : BitReader} (run : m s.reader = (some a, r))
    (f : α → Decode β) : (read m >>= f) s = f a (s.setReader r) := by
  apply bind_of_some
  rw [read, focus_run, run]

theorem readbits_bind (bits : Word) (f : Word → Decode β) :
    (readbits bits >>= f) s =
      f (s.reader.readbits bits).1 (s.setReader (s.reader.readbits bits).2) := by
  rw [readbits]
  exact read_bind (total_run _ _) f

end Decode

/-- What decoding a channel leaves behind: its samples at the front of their buffer, and
everything else but the prediction errors as it was. -/
structure ChannelDecoded (channelB : Bool) (samples : List Word × BitReader) (s t : FrameState) :
    Prop where
  reader : t.reader = samples.2
  output : t.output = s.output
  blank : t.dec.blank = s.dec.blank
  front : samples.1 <+: t.dec.outputsamplesBuffer channelB
  other : t.dec.outputsamplesBuffer (!channelB) = s.dec.outputsamplesBuffer (!channelB)
  lowA : t.dec.uncompressedBytesBufferA = s.dec.uncompressedBytesBufferA
  lowB : t.dec.uncompressedBytesBufferB = s.dec.uncompressedBytesBufferB

theorem channelDecoded_overwrite (s : FrameState) (channelB : Bool) {errors samples : List Word}
    (roomErrors : errors.length ≤ (s.dec.predicterrorBuffer channelB).length)
    (room : samples.length ≤ (s.dec.outputsamplesBuffer channelB).length) (r : BitReader)
    (table : List (BitVec 16)) :
    ChannelDecoded channelB (samples, r) s
      ((s.setErrors channelB (r, overwrite errors (s.dec.predicterrorBuffer channelB))).setSamples
        channelB (overwrite samples (s.dec.outputsamplesBuffer channelB), table)) where
  reader := rfl
  output := rfl
  blank := (AlacDecoder.blank_setOutputsamplesBuffer (by
      rw [length_overwrite room]
      exact congrArg List.length
        (AlacDecoder.outputsamplesBuffer_setPredicterrorBuffer ..).symm)).trans
    (AlacDecoder.blank_setPredicterrorBuffer (length_overwrite roomErrors))
  front := by cases channelB <;> exact prefix_overwrite _ _
  other := by cases channelB <;> rfl
  lowA := by cases channelB <;> rfl
  lowB := by cases channelB <;> rfl

theorem decodeChannel_ensures {s : FrameState} (ready : Ready s.dec) (channelB : Bool)
    {count : Nat} (inside : count ≤ s.dec.maxSamplesPerFrame.toNat) (readsamplesize : Word)
    {hdr : PredictorHeader} (fits : OrderFits hdr.predNum count)
    (table : hdr.predNum ≤ hdr.predTable.length) :
    Ensures (decodeChannel channelB count readsamplesize hdr) s fun _ t =>
      ChannelDecoded channelB (channelSamples s.dec count readsamplesize hdr s.reader) s t := by
  have rice := entropyRiceDecode_run readsamplesize (s.dec.riceParams hdr)
    (show count ≤ (s.dec.predicterrorBuffer channelB).length by
      rw [ready.predicterror]; exact inside) s.reader
  have total : (channelErrors readsamplesize (s.dec.riceParams hdr) count s.reader).1.length =
      count := length_channelErrors ..
  rw [channelSamples]
  generalize channelErrors readsamplesize (s.dec.riceParams hdr) count s.reader = errors
    at rice total
  obtain ⟨errors, r⟩ := errors
  subst total
  have fitsErrors : errors.length ≤ (s.dec.predicterrorBuffer channelB).length := by
    rw [ready.predicterror]; exact inside
  have predictor := predictorDecompressFirAdapt_run readsamplesize hdr.predQuant fits fitsErrors
    (show errors.length ≤ (s.dec.outputsamplesBuffer channelB).length by
      rw [ready.outputsamples]; exact inside) table
  have fitsSamples : (predicted readsamplesize hdr.predQuant hdr.predNum hdr.predTable
      errors).length ≤ (s.dec.outputsamplesBuffer channelB).length := by
    rw [ready.outputsamples, length_predicted]; exact inside
  refine ⟨(), _, ?_, channelDecoded_overwrite s channelB fitsErrors fitsSamples r
    (predictedRun readsamplesize hdr.predQuant hdr.predNum hdr.predTable errors).2⟩
  rw [decodeChannel, view_bind, bind_of_some (by rw [focus_run, rice]), view_bind, focus_run]
  simp only [FrameState.setErrors, AlacDecoder.outputsamplesBuffer_setPredicterrorBuffer,
    AlacDecoder.predicterrorBuffer_setPredicterrorBuffer, predictor]

theorem orderFits_of_decodeChannel {s : FrameState} (ready : Ready s.dec) {channelB : Bool}
    {count : Nat} (samples : 0 < count) (inside : count ≤ s.dec.maxSamplesPerFrame.toNat)
    {readsamplesize : Word} {hdr : PredictorHeader}
    (returns : (decodeChannel channelB count readsamplesize hdr s).1.isSome) :
    OrderFits hdr.predNum count := by
  have roomErrors : count ≤ (s.dec.predicterrorBuffer channelB).length := by
    rw [ready.predicterror]; exact inside
  have room : count ≤ (s.dec.outputsamplesBuffer channelB).length := by
    rw [ready.outputsamples]; exact inside
  have rice := entropyRiceDecode_run readsamplesize (s.dec.riceParams hdr) roomErrors s.reader
  rw [decodeChannel, view_bind, bind_of_some (by rw [focus_run, rice]), view_bind, focus_run]
    at returns
  simp only [FrameState.setErrors, AlacDecoder.outputsamplesBuffer_setPredicterrorBuffer,
    AlacDecoder.predicterrorBuffer_setPredicterrorBuffer] at returns
  refine orderFits_of_isSome _ _ samples ?_ ?_ returns
  · apply List.ne_nil_of_length_pos
    rw [length_overwrite (by rw [length_channelErrors]; exact roomErrors)]
    omega
  · apply List.ne_nil_of_length_pos
    omega

/-- Both channels of a stereo frame are decoded, one after the other. -/
theorem decodeChannels_ensures {s : FrameState} (ready : Ready s.dec) {count : Nat}
    (inside : count ≤ s.dec.maxSamplesPerFrame.toNat) (readsamplesize : Word)
    {hdrA hdrB : PredictorHeader} (fitsA : OrderFits hdrA.predNum count)
    (fitsB : OrderFits hdrB.predNum count) (tableA : hdrA.predNum ≤ hdrA.predTable.length)
    (tableB : hdrB.predNum ≤ hdrB.predTable.length) :
    let a := channelSamples s.dec count readsamplesize hdrA s.reader
    let b := channelSamples s.dec count readsamplesize hdrB a.2
    Ensures (decodeChannel false count readsamplesize hdrA >>= fun _ =>
        decodeChannel true count readsamplesize hdrB) s fun _ t =>
      t.output = s.output ∧ t.dec.blank = s.dec.blank ∧
        a.1 <+: t.dec.outputsamplesBufferA ∧ b.1 <+: t.dec.outputsamplesBufferB ∧
        t.dec.uncompressedBytesBufferA = s.dec.uncompressedBytesBufferA ∧
        t.dec.uncompressedBytesBufferB = s.dec.uncompressedBytesBufferB := by
  intro a b
  refine (decodeChannel_ensures ready false inside readsamplesize fitsA tableA).bind ?_
  intro _ t doneA
  have inside' : count ≤ t.dec.maxSamplesPerFrame.toNat := by
    rw [AlacDecoder.maxSamplesPerFrame_congr doneA.blank]
    exact inside
  refine (decodeChannel_ensures (ready.congr doneA.blank) true inside' readsamplesize fitsB
    tableB).mono ?_
  intro _ u doneB
  have kept : u.dec.outputsamplesBufferA = t.dec.outputsamplesBufferA := doneB.other
  have front := doneB.front
  rw [channelSamples_congr doneA.blank, doneA.reader] at front
  refine ⟨doneB.output.trans doneA.output, doneB.blank.trans doneA.blank, ?_, front,
    doneB.lowA.trans doneA.lowA, doneB.lowB.trans doneA.lowB⟩
  rw [kept]
  exact doneA.front

section Fill

variable (read : BitReader → Word × BitReader) {count : Nat} {buffer bufferA bufferB : List Word}

theorem fillSlice_run (bits : Word) (room : count ≤ buffer.length) (r : BitReader) :
    fillSlice bits count (r, buffer) =
      (some (), (readMany bits count r).2, overwrite (readMany bits count r).1 buffer) := by
  rw [fillSlice, view_bind, if_pos room]
  rfl

theorem fillBuffer_run (room : count ≤ buffer.length) (r : BitReader) :
    fillBuffer count read (r, buffer) =
      (some (), (produce read count r).2, overwrite (produce read count r).1 buffer) := by
  refine forRange_produce (fun done r => (r, overwrite done buffer)) ?_ r
  intro done r short
  rw [reading_bind]
  exact writing_write _ _ (by omega)

theorem writingA_bind {α : Type} {done other : List Word} (v : Word) (r : BitReader)
    (room : done.length < buffer.length)
    (f : Unit → Attempt (BitReader × List Word × List Word) α) :
    (writingA (.write done.length v) >>= f) (r, overwrite done buffer, other) =
      f () (r, overwrite (done ++ [v]) buffer, other) := by
  apply bind_of_some
  rw [writingA, focus_run, write_overwrite v room]

theorem writingB_run {done other : List Word} (v : Word) (r : BitReader)
    (room : done.length < buffer.length) :
    writingB (.write done.length v) (r, other, overwrite done buffer) =
      (some (), r, other, overwrite (done ++ [v]) buffer) := by
  rw [writingB, focus_run, write_overwrite v room]

/-- The two buffers after pairs have been read. -/
theorem fillBuffers_run (roomA : count ≤ bufferA.length) (roomB : count ≤ bufferB.length)
    (r : BitReader) :
    let pairs := produce (readPair read) count r
    fillBuffers count read (r, bufferA, bufferB) =
      (some (), pairs.2, overwrite (pairs.1.map Prod.fst) bufferA,
        overwrite (pairs.1.map Prod.snd) bufferB) := by
  refine forRange_produce (fun done r => (r, overwrite (done.map Prod.fst) bufferA,
    overwrite (done.map Prod.snd) bufferB)) ?_ r
  intro done r short
  have lengthA : (done.map Prod.fst).length = done.length := List.length_map _
  have lengthB : (done.map Prod.snd).length = done.length := List.length_map _
  rw [reading_bind, ← lengthA, writingA_bind _ _ (by omega), reading_bind, lengthA, ← lengthB,
    writingB_run _ _ (by omega)]
  simp [readPair]

/-- The order of reads and writes within a pair does not matter. -/
theorem fillBuffersTogether_run (roomA : count ≤ bufferA.length)
    (roomB : count ≤ bufferB.length) (r : BitReader) :
    let pairs := produce (readPair read) count r
    fillBuffersTogether count read (r, bufferA, bufferB) =
      (some (), pairs.2, overwrite (pairs.1.map Prod.fst) bufferA,
        overwrite (pairs.1.map Prod.snd) bufferB) := by
  refine forRange_produce (fun done r => (r, overwrite (done.map Prod.fst) bufferA,
    overwrite (done.map Prod.snd) bufferB)) ?_ r
  intro done r short
  have lengthA : (done.map Prod.fst).length = done.length := List.length_map _
  have lengthB : (done.map Prod.snd).length = done.length := List.length_map _
  rw [reading_bind, reading_bind, ← lengthA, writingA_bind _ _ (by omega), lengthA, ← lengthB,
    writingB_run _ _ (by omega)]
  simp [readPair]

end Fill

/-- Where the content of a frame is found after it has been read. -/
structure FrameRead (c : Content) (s t : FrameState) : Prop where
  output : t.output = s.output
  blank : t.dec.blank = s.dec.blank
  a : c.a <+: t.dec.outputsamplesBufferA
  b : c.b <+: t.dec.outputsamplesBufferB
  lowA : c.lowA <+: t.dec.uncompressedBytesBufferA
  lowB : c.lowB <+: t.dec.uncompressedBytesBufferB

section Reading

variable {s : FrameState} {hdr : SubframeHeader}

theorem readMonoLow_run (room : hdr.outputSamples ≤ s.dec.uncompressedBytesBufferA.length) :
    readMonoLow hdr s = (some (), s.setMonoLow ((monoLow hdr s.reader).2,
      overwrite (monoLow hdr s.reader).1 s.dec.uncompressedBytesBufferA)) := by
  rw [readMonoLow, monoLow]
  split
  · rw [focus_run, fillSlice_run _ room]
  · rfl

theorem readMonoVerbatim_run (room : hdr.outputSamples ≤ s.dec.outputsamplesBufferA.length)
    (sampleSize : Word) :
    readMonoVerbatim hdr.outputSamples sampleSize s =
      (some (), s.setMono ((produce (verbatim sampleSize) hdr.outputSamples s.reader).2,
        overwrite (produce (verbatim sampleSize) hdr.outputSamples s.reader).1
          s.dec.outputsamplesBufferA)) := by
  rw [readMonoVerbatim, focus_run, verbatim_eq]
  split
  · rw [fillBuffer_run _ room]
  · rw [fillBuffer_run _ room]

theorem readStereoLow_run (roomA : hdr.outputSamples ≤ s.dec.uncompressedBytesBufferA.length)
    (roomB : hdr.outputSamples ≤ s.dec.uncompressedBytesBufferB.length) :
    readStereoLow hdr s = (some (), s.setStereoLow ((stereoLow hdr s.reader).2,
      overwrite ((stereoLow hdr s.reader).1.map Prod.fst) s.dec.uncompressedBytesBufferA,
      overwrite ((stereoLow hdr s.reader).1.map Prod.snd) s.dec.uncompressedBytesBufferB)) := by
  rw [readStereoLow, stereoLow]
  split
  · rw [focus_run, fillBuffers_run _ roomA roomB]
  · rfl

theorem readStereoVerbatim_run (roomA : hdr.outputSamples ≤ s.dec.outputsamplesBufferA.length)
    (roomB : hdr.outputSamples ≤ s.dec.outputsamplesBufferB.length) (sampleSize : Word) :
    let pairs := produce (readPair (verbatim sampleSize)) hdr.outputSamples s.reader
    readStereoVerbatim hdr.outputSamples sampleSize s =
      (some (), s.setStereo (pairs.2, overwrite (pairs.1.map Prod.fst) s.dec.outputsamplesBufferA,
        overwrite (pairs.1.map Prod.snd) s.dec.outputsamplesBufferB)) := by
  rw [readStereoVerbatim, focus_run, verbatim_eq]
  split
  · rw [fillBuffersTogether_run _ roomA roomB]
  · rw [fillBuffers_run _ roomA roomB]

/-- What is read into the low bytes and the samples does not show in the blank decoder. -/
theorem blank_setMonoLow (s : FrameState) (part : BitReader × List Word)
    (same : part.2.length = s.dec.uncompressedBytesBufferA.length) :
    (s.setMonoLow part).dec.blank = s.dec.blank :=
  congrArg (fun n => { s.dec.blank with uncompressedBytesBufferA := List.replicate n 0 }) same

theorem blank_setMono (s : FrameState) (part : BitReader × List Word)
    (same : part.2.length = s.dec.outputsamplesBufferA.length) :
    (s.setMono part).dec.blank = s.dec.blank :=
  congrArg (fun n => { s.dec.blank with outputsamplesBufferA := List.replicate n 0 }) same

theorem blank_setStereoLow (s : FrameState) (part : BitReader × List Word × List Word)
    (sameA : part.2.1.length = s.dec.uncompressedBytesBufferA.length)
    (sameB : part.2.2.length = s.dec.uncompressedBytesBufferB.length) :
    (s.setStereoLow part).dec.blank = s.dec.blank := by
  simp only [FrameState.setStereoLow, AlacDecoder.blank, sameA, sameB]

theorem blank_setStereo (s : FrameState) (part : BitReader × List Word × List Word)
    (sameA : part.2.1.length = s.dec.outputsamplesBufferA.length)
    (sameB : part.2.2.length = s.dec.outputsamplesBufferB.length) :
    (s.setStereo part).dec.blank = s.dec.blank := by
  simp only [FrameState.setStereo, AlacDecoder.blank, sameA, sameB]

theorem length_monoLow_le (hdr : SubframeHeader) (r : BitReader) :
    (monoLow hdr r).1.length ≤ hdr.outputSamples := by
  rw [monoLow]
  split
  · exact Nat.le_of_eq (length_produce _ _ _)
  · exact Nat.zero_le _

theorem length_stereoLow_le (hdr : SubframeHeader) (r : BitReader) :
    (stereoLow hdr r).1.length ≤ hdr.outputSamples := by
  rw [stereoLow]
  split
  · exact Nat.le_of_eq (length_produce _ _ _)
  · exact Nat.zero_le _

/-- The state in which the channel of a compressed mono frame is decoded. -/
def monoStart (hdr : SubframeHeader) (s : FrameState) : FrameState :=
  let low := monoLow hdr (monoPredictor s.reader).2
  s.setMonoLow (low.2, overwrite low.1 s.dec.uncompressedBytesBufferA)

/-- The state in which the channels of a compressed stereo frame are decoded. -/
def stereoStart (hdr : SubframeHeader) (s : FrameState) : FrameState :=
  let low := stereoLow hdr (stereoPredictors s.reader).2
  s.setStereoLow (low.2, overwrite (low.1.map Prod.fst) s.dec.uncompressedBytesBufferA,
    overwrite (low.1.map Prod.snd) s.dec.uncompressedBytesBufferB)

section Start

variable (ready : Ready s.dec) (inside : hdr.outputSamples ≤ s.dec.maxSamplesPerFrame.toNat)
include ready inside

theorem blank_monoStart : (monoStart hdr s).dec.blank = s.dec.blank := by
  apply blank_setMonoLow
  apply length_overwrite
  rw [ready.uncompressedA]
  exact (length_monoLow_le _ _).trans inside

theorem blank_stereoStart : (stereoStart hdr s).dec.blank = s.dec.blank := by
  have short := (length_stereoLow_le hdr (stereoPredictors s.reader).2).trans inside
  apply blank_setStereoLow
  · apply length_overwrite
    rw [List.length_map, ready.uncompressedA]
    exact short
  · apply length_overwrite
    rw [List.length_map, ready.uncompressedB]
    exact short

/-- A compressed mono frame is its headers and low bytes, then its channel. -/
theorem readMono_compressed (compressed : hdr.isNotCompressed = 0) (readsamplesize : Word) :
    readMono hdr readsamplesize s =
      decodeChannel false hdr.outputSamples readsamplesize (monoPredictor s.reader).1
        (monoStart hdr s) := by
  have low : readMonoLow hdr (s.setReader (monoPredictor s.reader).2) =
      (some (), monoStart hdr s) :=
    readMonoLow_run (show _ ≤ s.dec.uncompressedBytesBufferA.length by
      rw [ready.uncompressedA]; exact inside)
  rw [readMono, if_pos compressed, Decode.readbits_bind, Decode.readbits_bind,
    Decode.read_bind (readPredictorHeader_run _)]
  exact bind_of_some low _

/-- A compressed stereo frame is its headers and low bytes, then its channels. -/
theorem readStereo_compressed (compressed : hdr.isNotCompressed = 0) (readsamplesize : Word) :
    readStereo hdr readsamplesize s =
      (decodeChannel false hdr.outputSamples readsamplesize (stereoPredictors s.reader).1.1 >>=
        fun _ => decodeChannel true hdr.outputSamples readsamplesize
          (stereoPredictors s.reader).1.2 >>=
        fun _ => pure ((s.reader.readbits 8).1.setWidth 8,
          ((s.reader.readbits 8).2.readbits 8).1.setWidth 8)) (stereoStart hdr s) := by
  have low : readStereoLow hdr (s.setReader (stereoPredictors s.reader).2) =
      (some (), stereoStart hdr s) :=
    readStereoLow_run
      (show _ ≤ s.dec.uncompressedBytesBufferA.length by rw [ready.uncompressedA]; exact inside)
      (show _ ≤ s.dec.uncompressedBytesBufferB.length by rw [ready.uncompressedB]; exact inside)
  rw [readStereo, if_pos compressed, Decode.readbits_bind, Decode.readbits_bind,
    Decode.read_bind (readPredictorHeader_run _), Decode.read_bind (readPredictorHeader_run _)]
  exact bind_of_some low _

end Start

/-- The table of a header has room for its order. -/
theorem predNum_le_length (r : BitReader) :
    (predictorHeader r).1.predNum ≤ (predictorHeader r).1.predTable.length := by
  rw [length_predTable]
  exact Nat.le_of_lt (predNum_lt r)

/-- A mono frame whose order fits is read. -/
theorem readMono_ensures (ready : Ready s.dec)
    (inside : hdr.outputSamples ≤ s.dec.maxSamplesPerFrame.toNat)
    (fits : OrdersFit (monoOrders hdr s.reader) hdr.outputSamples) :
    Ensures (readMono hdr (monoSize s.dec hdr)) s fun _ t =>
      FrameRead (monoContent s.dec hdr s.reader) s t := by
  by_cases compressed : hdr.isNotCompressed = 0
  · rw [monoOrders, if_pos compressed] at fits
    have blank := blank_monoStart ready inside
    obtain ⟨_, t, run, decoded⟩ := decodeChannel_ensures (ready.congr blank) false inside
      (monoSize s.dec hdr) (fits _ List.mem_cons_self) (predNum_le_length _)
    refine .of_eq ((readMono_compressed ready inside compressed _).trans run) ?_
    rw [monoContent, if_pos compressed]
    refine ⟨decoded.output, decoded.blank.trans blank, decoded.front, List.nil_prefix, ?_,
      List.nil_prefix⟩
    rw [decoded.lowA]
    exact prefix_overwrite _ _
  · have room : hdr.outputSamples ≤ s.dec.outputsamplesBufferA.length := by
      rw [ready.outputsamplesA]; exact inside
    have length : (produce (verbatim s.dec.sampleSize) hdr.outputSamples s.reader).1.length ≤
        s.dec.outputsamplesBufferA.length := by
      rw [length_produce]; exact room
    rw [readMono, monoContent, if_neg compressed, if_neg compressed]
    exact .of_eq ((view_bind _ _ _).trans (readMonoVerbatim_run room s.dec.sampleSize)) {
      output := rfl
      blank := blank_setMono _ _ (length_overwrite length)
      a := prefix_overwrite _ _
      b := List.nil_prefix
      lowA := List.nil_prefix
      lowB := List.nil_prefix }

theorem ordersFit_of_readMono (ready : Ready s.dec) (samples : 0 < hdr.outputSamples)
    (inside : hdr.outputSamples ≤ s.dec.maxSamplesPerFrame.toNat) {readsamplesize : Word}
    (returns : (readMono hdr readsamplesize s).1.isSome) :
    OrdersFit (monoOrders hdr s.reader) hdr.outputSamples := by
  rw [monoOrders]
  split
  · rename_i compressed
    rw [readMono_compressed ready inside compressed] at returns
    intro m mem
    rw [List.mem_singleton.mp mem]
    exact orderFits_of_decodeChannel (ready.congr (blank_monoStart ready inside)) samples inside
      returns
  · intro m mem
    cases mem

/-- A stereo frame whose orders fit is read. -/
theorem readStereo_ensures (ready : Ready s.dec)
    (inside : hdr.outputSamples ≤ s.dec.maxSamplesPerFrame.toNat)
    (fits : OrdersFit (stereoOrders hdr s.reader) hdr.outputSamples) :
    Ensures (readStereo hdr (stereoSize s.dec hdr)) s fun mix t =>
      mix = ((stereoContent s.dec hdr s.reader).shift,
        (stereoContent s.dec hdr s.reader).leftweight) ∧
      FrameRead (stereoContent s.dec hdr s.reader) s t := by
  by_cases compressed : hdr.isNotCompressed = 0
  · rw [stereoOrders, if_pos compressed] at fits
    have blank := blank_stereoStart ready inside
    obtain ⟨_, t, run, output, kept, frontA, frontB, lowA, lowB⟩ :=
      decodeChannels_ensures (ready.congr blank) inside (stereoSize s.dec hdr)
        (fits _ List.mem_cons_self) (fits _ (List.mem_cons_of_mem _ List.mem_cons_self))
        (predNum_le_length _) (predNum_le_length _)
    refine .of_eq ((readStereo_compressed ready inside compressed _).trans
      (bind_bind_of_some run _)) ?_
    rw [stereoContent, if_pos compressed]
    refine ⟨rfl, output, kept.trans blank, frontA, frontB, ?_, ?_⟩
    · rw [lowA]
      exact prefix_overwrite _ _
    · rw [lowB]
      exact prefix_overwrite _ _
  · have roomA : hdr.outputSamples ≤ s.dec.outputsamplesBufferA.length := by
      rw [ready.outputsamplesA]; exact inside
    have roomB : hdr.outputSamples ≤ s.dec.outputsamplesBufferB.length := by
      rw [ready.outputsamplesB]; exact inside
    rw [readStereo, stereoContent, if_neg compressed, if_neg compressed]
    refine .of_eq ((view_bind _ _ _).trans
      (bind_of_some (readStereoVerbatim_run roomA roomB s.dec.sampleSize) _)) ⟨rfl, ?_⟩
    exact {
      output := rfl
      blank := blank_setStereo _ _ (length_overwrite (by simpa using roomA))
        (length_overwrite (by simpa using roomB))
      a := prefix_overwrite _ _
      b := prefix_overwrite _ _
      lowA := List.take_prefix _ _
      lowB := List.take_prefix _ _ }

theorem ordersFit_of_readStereo (ready : Ready s.dec) (samples : 0 < hdr.outputSamples)
    (inside : hdr.outputSamples ≤ s.dec.maxSamplesPerFrame.toNat) {readsamplesize : Word}
    (returns : (readStereo hdr readsamplesize s).1.isSome) :
    OrdersFit (stereoOrders hdr s.reader) hdr.outputSamples := by
  rw [stereoOrders]
  split
  · rename_i compressed
    rw [readStereo_compressed ready inside compressed] at returns
    have ready' := ready.congr (blank_stereoStart ready inside)
    obtain ⟨_, t, first, returns⟩ := isSome_bind returns
    obtain ⟨_, u, second, -⟩ := isSome_bind returns
    have orderA := orderFits_of_decodeChannel ready' samples inside (by rw [first]; rfl)
    obtain ⟨_, t', first', decoded⟩ := decodeChannel_ensures ready' false inside readsamplesize
      orderA (predNum_le_length _)
    obtain ⟨-, rfl⟩ := Prod.mk.inj (first.symm.trans first')
    have inside' : hdr.outputSamples ≤ t.dec.maxSamplesPerFrame.toNat := by
      rw [AlacDecoder.maxSamplesPerFrame_congr decoded.blank]
      exact inside
    have orderB := orderFits_of_decodeChannel (ready'.congr decoded.blank) samples inside'
      (by rw [second]; rfl)
    intro m mem
    rcases List.mem_cons.mp mem with rfl | mem
    · exact orderA
    · rw [List.mem_singleton.mp mem]
      exact orderB
  · intro m mem
    cases mem

end Reading

end Shairplay.Codec
