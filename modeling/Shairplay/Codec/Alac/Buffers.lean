import Shairplay.Codec.Alac.Frame

/-!
# What survives a frame

A frame may be refused, decoded, or lost to a panic. In every case the decoder keeps its
settings and the lengths of its buffers, and until the samples are written out the
output slice is untouched. Both hold for all of the code, so they are stated for
arbitrary decoders.
-/

namespace Shairplay.Codec

open Lib Lib.Attempt

/-- The buffer beside the reader has this length. -/
def Sized (n : Nat) (s : BitReader × List Word) : Prop := s.2.length = n

/-- The two buffers beside the reader have these lengths. -/
def SizedPair (n m : Nat) (s : BitReader × List Word × List Word) : Prop :=
  s.2.1.length = n ∧ s.2.2.length = m

def SizedSamples (n : Nat) (s : List Word × List (BitVec 16)) : Prop := s.1.length = n

theorem keeps_reading {β : Type} {P : BitReader × β → Prop}
    (free : ∀ r r' out, P (r, out) → P (r', out)) (read : BitReader → Word × BitReader) :
    Keeps P (reading read) :=
  fun s h => free s.1 (read s.1).2 s.2 h

theorem keeps_reading_sized {n : Nat} (read : BitReader → Word × BitReader) :
    Keeps (Sized n) (reading read) :=
  keeps_reading (fun _ _ _ h => h) read

theorem keeps_writing {n : Nat} {m : Attempt (List Word) Unit}
    (part : Keeps (fun xs : List Word => xs.length = n) m) : Keeps (Sized n) (writing m) :=
  .focus part (fun _ h => h) fun _ _ _ h => h

theorem keeps_fill {n : Nat} (start stop : Nat) (value : Word) :
    Keeps (fun xs : List Word => xs.length = n) (fill start stop value) := by
  unfold fill
  split
  · exact .writeSlice _ _
  · exact .fail

theorem keeps_riceLoop {n : Nat} (outputSize : Nat) (readSampleSize : Word) (rice : RiceParams)
    (rounds i : Nat) (history signModifier : Word) :
    Keeps (Sized n) (riceLoop outputSize readSampleSize rice rounds i history signModifier) := by
  induction rounds generalizing i history signModifier with
  | zero => exact .pure ()
  | succ rounds ih =>
    unfold riceLoop
    split
    · refine .bind (keeps_reading_sized _) fun value => ?_
      refine .bind (keeps_writing (.write _ _)) fun _ => ?_
      dsimp only
      split
      · refine .bind (keeps_reading_sized _) fun blockSize => ?_
        split
        · exact .bind (keeps_writing (keeps_fill _ _ _)) fun _ => ih _ _ _
        · exact ih _ _ _
      · exact ih _ _ _
    · exact .pure ()

theorem keeps_onBuffer {n : Nat} {m : Attempt (List Word) Unit}
    (part : Keeps (fun xs : List Word => xs.length = n) m) : Keeps (SizedSamples n) (onBuffer m) :=
  .focus part (fun _ h => h) fun _ _ _ h => h

theorem keeps_bufferOut {n : Nat} (i : Nat) : Keeps (SizedSamples n) (bufferOut i) :=
  fun _ h => h

theorem keeps_coefficient {n : Nat} (i : Nat) : Keeps (SizedSamples n) (coefficient i) :=
  fun _ h => h

theorem keeps_deltaRound {n : Nat} (errorBuffer : List Word) (readsamplesize : Word) (i : Nat) :
    Keeps (SizedSamples n) (deltaRound errorBuffer readsamplesize i) :=
  .bind (keeps_bufferOut _) fun _ => .bind (.index _ _) fun _ => keeps_onBuffer (.write _ _)

theorem keeps_predictorSum {n : Nat} (coefNum off : Nat) :
    Keeps (SizedSamples n) (predictorSum coefNum off) := by
  refine .foldRange (fun j sum => ?_) _ _ _
  refine .bind (keeps_bufferOut _) fun _ => .bind (keeps_bufferOut _) fun _ => ?_
  exact .bind (keeps_coefficient _) fun _ => .pure _

theorem keeps_adaptLoop {n : Nat} (coefNum off : Nat) (quantitization : Word) (d : Direction)
    (pn : Nat) (ev : Word) :
    Keeps (SizedSamples n) (adaptLoop coefNum off quantitization d pn ev) := by
  induction pn generalizing ev with
  | zero => exact .pure ()
  | succ pn ih =>
    unfold adaptLoop
    split
    · refine .bind (keeps_bufferOut _) fun _ => .bind (keeps_bufferOut _) fun _ => ?_
      refine .bind (keeps_coefficient _) fun _ => .bind (fun _ h => h) fun _ => ?_
      exact ih _
    · exact .pure ()

theorem keeps_predictorRound {n : Nat} (readsamplesize quantitization : Word) (coefNum off : Nat)
    (errorVal : Word) :
    Keeps (SizedSamples n) (predictorRound readsamplesize quantitization coefNum off errorVal) := by
  refine .bind (keeps_predictorSum _ _) fun _ => .bind (keeps_bufferOut _) fun _ => ?_
  refine .bind (keeps_onBuffer (.write _ _)) fun _ => ?_
  split
  · exact keeps_adaptLoop _ _ _ _ _ _
  · split
    · exact keeps_adaptLoop _ _ _ _ _ _
    · exact .pure ()

theorem keeps_predictor {n : Nat} (errorBuffer : List Word) (outputSize : Nat)
    (readsamplesize : Word) (coefNum : Nat) (quantitization : Word) :
    Keeps (SizedSamples n)
      (predictorDecompressFirAdapt errorBuffer outputSize readsamplesize coefNum
        quantitization) := by
  refine .bind (.view _) fun out => ?_
  split
  · exact .pure ()
  · refine .bind (.index _ _) fun _ => .bind (keeps_onBuffer (.write _ _)) fun _ => ?_
    split
    · split
      · exact .pure ()
      · exact .bind (.slice _ _ _) fun _ => keeps_onBuffer (.writeSlice _ _)
    · split
      · split
        · exact .pure ()
        · exact .forRange (keeps_deltaRound _ _) _
      · refine .bind (.forRange (keeps_deltaRound _ _) _) fun _ => ?_
        exact .bind (.slice _ _ _) fun _ => .forEnum (keeps_predictorRound _ _ _) _ _

theorem keeps_fillSlice {n : Nat} (bits : Word) (count : Nat) :
    Keeps (Sized n) (fillSlice bits count) := by
  intro s h
  obtain ⟨r, buffer⟩ := s
  rw [fillSlice, view_bind]
  split
  · rename_i room
    exact (length_overwrite (by simpa [readMany] using room)).trans h
  · exact h

theorem keeps_fillBuffer {n : Nat} (count : Nat) (read : BitReader → Word × BitReader) :
    Keeps (Sized n) (fillBuffer count read) :=
  .forRange (fun _ => .bind (keeps_reading_sized _) fun _ => keeps_writing (.write _ _)) _

section Pairs

variable {n m : Nat} (i : Nat) (value : Word)

theorem keeps_writingA : Keeps (SizedPair n m) (writingA (.write i value)) :=
  .focus (.write i value) (fun _ h => h.1) fun _ _ h part => ⟨part, h.2⟩

theorem keeps_writingB : Keeps (SizedPair n m) (writingB (.write i value)) :=
  .focus (.write i value) (fun _ h => h.2) fun _ _ h part => ⟨h.1, part⟩

theorem keeps_reading_sizedPair (read : BitReader → Word × BitReader) :
    Keeps (SizedPair n m) (reading read) :=
  keeps_reading (fun _ _ _ h => h) read

theorem keeps_fillBuffers (count : Nat) (read : BitReader → Word × BitReader) :
    Keeps (SizedPair n m) (fillBuffers count read) := by
  refine .forRange (fun i => ?_) _
  refine .bind (keeps_reading_sizedPair _) fun _ => .bind (keeps_writingA _ _) fun _ => ?_
  exact .bind (keeps_reading_sizedPair _) fun _ => keeps_writingB _ _

theorem keeps_fillBuffersTogether (count : Nat) (read : BitReader → Word × BitReader) :
    Keeps (SizedPair n m) (fillBuffersTogether count read) := by
  refine .forRange (fun i => ?_) _
  refine .bind (keeps_reading_sizedPair _) fun _ => .bind (keeps_reading_sizedPair _) fun _ => ?_
  exact .bind (keeps_writingA _ _) fun _ => keeps_writingB _ _

end Pairs

/-- The settings and lengths of the decoder, and the output. -/
def Steady (c : AlacDecoder) (output : List UInt8) (s : FrameState) : Prop :=
  s.dec.blank = c ∧ s.output = output

variable {c : AlacDecoder} {output : List UInt8}

theorem keeps_read {α : Type} (m : Attempt BitReader α) : Keeps (Steady c output) (Decode.read m) :=
  fun _ h => h

theorem keeps_decodeChannel (channelB : Bool) (count : Nat) (readsamplesize : Word)
    (hdr : PredictorHeader) :
    Keeps (Steady c output) (decodeChannel channelB count readsamplesize hdr) := by
  refine .bind (.view _) fun rice => .bind ?_ fun _ => .bind (.view _) fun prederr => ?_
  · intro s h
    have same := keeps_riceLoop count readsamplesize rice count 0 rice.initialHistory 0
      (s.reader, s.dec.predicterrorBuffer channelB) rfl
    exact ⟨(AlacDecoder.blank_setPredicterrorBuffer same).trans h.1, h.2⟩
  · intro s h
    have same := keeps_predictor prederr count readsamplesize hdr.predNum hdr.predQuant
      (s.dec.outputsamplesBuffer channelB, hdr.predTable) rfl
    exact ⟨(AlacDecoder.blank_setOutputsamplesBuffer same).trans h.1, h.2⟩

theorem keeps_readMono (hdr : SubframeHeader) (readsamplesize : Word) :
    Keeps (Steady c output) (readMono hdr readsamplesize) := by
  unfold readMono
  split
  · refine .bind (keeps_read _) fun _ => .bind (keeps_read _) fun _ => ?_
    refine .bind (keeps_read _) fun _ => .bind ?_ fun _ => keeps_decodeChannel _ _ _ _
    unfold readMonoLow
    split
    · intro s h
      have same := keeps_fillSlice (hdr.uncompressedBytes * 8) hdr.outputSamples
        (s.reader, s.dec.uncompressedBytesBufferA) rfl
      exact ⟨(blank_setMonoLow s _ same).trans h.1, h.2⟩
    · exact .pure ()
  · refine .bind (.view _) fun dec => ?_
    intro s h
    have same : Sized s.dec.outputsamplesBufferA.length
        ((if dec.sampleSize ≤ 16 then fillBuffer hdr.outputSamples (readSample16 dec.sampleSize)
          else fillBuffer hdr.outputSamples (readSample24 dec.sampleSize))
          (s.reader, s.dec.outputsamplesBufferA)).2 := by
      split
      · exact keeps_fillBuffer _ _ _ rfl
      · exact keeps_fillBuffer _ _ _ rfl
    exact ⟨(blank_setMono s _ same).trans h.1, h.2⟩

theorem keeps_readStereo (hdr : SubframeHeader) (readsamplesize : Word) :
    Keeps (Steady c output) (readStereo hdr readsamplesize) := by
  unfold readStereo
  split
  · refine .bind (keeps_read _) fun _ => .bind (keeps_read _) fun _ => ?_
    refine .bind (keeps_read _) fun _ => .bind (keeps_read _) fun _ => ?_
    refine .bind ?_ fun _ => .bind (keeps_decodeChannel _ _ _ _) fun _ =>
      .bind (keeps_decodeChannel _ _ _ _) fun _ => .pure _
    unfold readStereoLow
    split
    · intro s h
      have same := keeps_fillBuffers hdr.outputSamples
        (fun r : BitReader => r.readbits (hdr.uncompressedBytes * 8))
        (s.reader, s.dec.uncompressedBytesBufferA, s.dec.uncompressedBytesBufferB) ⟨rfl, rfl⟩
      exact ⟨(blank_setStereoLow s _ same.1 same.2).trans h.1, h.2⟩
    · exact .pure ()
  · refine .bind (.view _) fun dec => .bind ?_ fun _ => .pure _
    intro s h
    have same : SizedPair s.dec.outputsamplesBufferA.length s.dec.outputsamplesBufferB.length
        ((if dec.sampleSize ≤ 16 then
            fillBuffersTogether hdr.outputSamples (readSample16 dec.sampleSize)
          else fillBuffers hdr.outputSamples (readSample24 dec.sampleSize))
          (s.reader, s.dec.outputsamplesBufferA, s.dec.outputsamplesBufferB)).2 := by
      split
      · exact keeps_fillBuffersTogether _ _ _ ⟨rfl, rfl⟩
      · exact keeps_fillBuffers _ _ _ ⟨rfl, rfl⟩
    exact ⟨(blank_setStereo s _ same.1 same.2).trans h.1, h.2⟩

/-- The decoder is one of those with these settings and lengths. -/
def Settled (c : AlacDecoder) (s : FrameState) : Prop := s.dec.blank = c

theorem keeps_sampleOf {P : FrameState → Prop} (buffer : AlacDecoder → List Word) (i : Nat) :
    Keeps P (Decode.sampleOf buffer i) :=
  fun _ h => h

theorem keeps_writeByte (i : Nat) (value : UInt8) : Keeps (Settled c) (Decode.writeByte i value) :=
  fun _ h => h

theorem keeps_writeBytes (start : Nat) (bytes : List UInt8) :
    Keeps (Settled c) (Decode.writeBytes start bytes) :=
  fun _ h => h

theorem keeps_deinterlace16 (numChannels numSamples : Nat) (shift leftweight : BitVec 8) :
    Keeps (Settled c) (deinterlace16 numChannels numSamples shift leftweight) := by
  refine .forRange (fun i => ?_) _
  refine .bind (keeps_sampleOf _ _) fun _ => .bind (keeps_sampleOf _ _) fun _ => ?_
  exact .bind (keeps_writeBytes _ _) fun _ => keeps_writeBytes _ _

theorem keeps_samples24 (uncompressedBytes : Word) (shift leftweight : BitVec 8) (i : Nat) :
    Keeps (Settled c) (samples24 uncompressedBytes shift leftweight i) := by
  refine .bind (keeps_sampleOf _ _) fun _ => .bind (keeps_sampleOf _ _) fun _ => ?_
  dsimp only
  split
  · exact .bind (keeps_sampleOf _ _) fun _ => .bind (keeps_sampleOf _ _) fun _ => .pure _
  · exact .pure _

theorem keeps_deinterlace24 (uncompressedBytes : Word) (numChannels numSamples : Nat)
    (shift leftweight : BitVec 8) :
    Keeps (Settled c)
      (deinterlace24 uncompressedBytes numChannels numSamples shift leftweight) := by
  refine .forRange (fun i => .bind (keeps_samples24 _ _ _ _) fun _ => ?_) _
  refine .bind (keeps_writeByte _ _) fun _ => .bind (keeps_writeByte _ _) fun _ => ?_
  refine .bind (keeps_writeByte _ _) fun _ => .bind (keeps_writeByte _ _) fun _ => ?_
  exact .bind (keeps_writeByte _ _) fun _ => keeps_writeByte _ _

theorem keeps_writeMono (hdr : SubframeHeader) : Keeps (Settled c) (writeMono hdr) := by
  refine .bind (.view _) fun dec => ?_
  split
  · refine .bind (.forRange (fun i => ?_) _) fun _ => .pure _
    exact .bind (keeps_sampleOf _ _) fun _ => keeps_writeBytes _ _
  · split
    · refine .bind (.forRange (fun i => .bind ?_ fun _ => ?_) _) fun _ => .pure _
      · refine .bind (keeps_sampleOf _ _) fun _ => ?_
        split
        · exact .bind (keeps_sampleOf _ _) fun _ => .pure _
        · exact .pure _
      · refine .bind (keeps_writeByte _ _) fun _ => ?_
        exact .bind (keeps_writeByte _ _) fun _ => keeps_writeByte _ _
    · exact .pure _

theorem keeps_writeStereo (hdr : SubframeHeader) (mix : BitVec 8 × BitVec 8) :
    Keeps (Settled c) (writeStereo hdr mix) := by
  refine .bind (.view _) fun dec => ?_
  split
  · exact .bind (keeps_deinterlace16 _ _ _ _) fun _ => .pure _
  · split
    · exact .bind (keeps_deinterlace24 _ _ _ _ _) fun _ => .pure _
    · exact .pure _

theorem keeps_settled {α : Type} {m : Decode α} (h : ∀ output, Keeps (Steady c output) m) :
    Keeps (Settled c) m :=
  fun s settled => (h s.output s ⟨settled, rfl⟩).1

theorem keeps_openSubframe : Keeps (Settled c) openSubframe :=
  .bind (.view _) fun _ => .bind (keeps_settled fun _ => keeps_read _) fun _ => .pure _

theorem keeps_decodeMono : Keeps (Settled c) decodeMono := by
  refine .bind keeps_openSubframe fun opened => ?_
  split
  · exact .pure _
  · exact .pure _
  · refine .bind (.view _) fun dec => ?_
    refine .bind (keeps_settled fun _ => keeps_readMono _ _) fun _ => ?_
    exact .bind (keeps_writeMono _) fun _ => .pure _

theorem keeps_decodeStereo : Keeps (Settled c) decodeStereo := by
  refine .bind keeps_openSubframe fun opened => ?_
  split
  · exact .pure _
  · exact .pure _
  · refine .bind (.view _) fun dec => ?_
    refine .bind (keeps_settled fun _ => keeps_readStereo _ _) fun mix => ?_
    exact .bind (keeps_writeStereo _ _) fun _ => .pure _

theorem keeps_decodeElement (channels : Word) : Keeps (Settled c) (decodeElement channels) := by
  refine .bind (.view _) fun dec => ?_
  split
  · split
    · exact .pure _
    · exact keeps_decodeMono
  · split
    · split
      · exact .pure _
      · exact keeps_decodeStereo
    · exact .pure _

theorem keeps_decodeBody : Keeps (Settled c) decodeBody := by
  refine .bind (.view _) fun s => ?_
  split
  · exact .pure _
  · refine .bind (keeps_settled fun _ => keeps_read _) fun channels => ?_
    split
    · exact .pure _
    · exact .bind (keeps_decodeElement _) fun _ => .pure _

/-- Every frame, decoded or not, leaves the settings and the lengths of the buffers. -/
theorem blank_decodeFrame (dec : AlacDecoder) (input output : List UInt8) :
    (dec.decodeFrame input output).1.blank = dec.blank :=
  keeps_decodeBody ⟨dec, BitReader.new input, output⟩ rfl

end Shairplay.Codec
