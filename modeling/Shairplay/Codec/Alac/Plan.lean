import Shairplay.Codec.Alac.Output

/-!
# What `decode_frame` returns and writes

`plan` is what a frame asks for once its header has been read: nothing, or the samples of
one or two channels. The results of this module give `decode_frame` for each plan: the
bytes of the content if the orders of the predictors fit, a panic before anything is
written if they do not.
-/

namespace Shairplay.Codec

open Lib Lib.Attempt
open AlacDecoder (Ready)

/-- What a frame asks for, with its header and the reader behind it. -/
inductive Plan
  | nothing
  | mono (hdr : SubframeHeader) (r : BitReader)
  | stereo (hdr : SubframeHeader) (r : BitReader)

def Plan.checked (verdict : Verdict) (plan : Plan) : Plan :=
  match verdict with
  | .refused => .nothing
  | .empty => .nothing
  | .decodes => plan

namespace AlacDecoder

/-- The header behind the element type of a frame. -/
def header (dec : AlacDecoder) (r : BitReader) : SubframeHeader × BitReader :=
  parseSubframeHeader dec.maxSamplesPerFrame.toNat
    (dec.maxSamplesPerFrame.toNat * dec.bytesPerSample.toNat) dec.bytesPerSample.toNat r

/-- What an element of a type asks for. -/
def elementPlan (dec : AlacDecoder) (channels : Word) (r : BitReader) (room : Nat) : Plan :=
  let opened := dec.header r
  if channels = 0 then
    if dec.numChannels ≠ 1 then .nothing
    else .checked (opened.1.verdict dec room) (.mono opened.1 opened.2)
  else if channels = 1 then
    if dec.numChannels ≠ 2 then .nothing
    else .checked (opened.1.verdict dec room) (.stereo opened.1 opened.2)
  else .nothing

/-- What a frame asks for. A type that is not the decoder's, a header that does not pass
its checks and a frame of no samples all ask for nothing. -/
def plan (dec : AlacDecoder) (input : List UInt8) (room : Nat) : Plan :=
  let channels := (BitReader.new input).readbits 3
  if dec.maxSamplesPerFrame = 0 ∨ dec.bytesPerSample.toInt ≤ 0 then .nothing
  else if room < dec.maxSamplesPerFrame.toNat * dec.bytesPerSample.toNat then .nothing
  else dec.elementPlan channels.1 channels.2 room

end AlacDecoder

/-- Decode the samples of a mono frame and write them. -/
def monoBody (hdr : SubframeHeader) (readsamplesize : Word) : Decode Nat := do
  readMono hdr readsamplesize
  let ok ← writeMono hdr
  pure (if ok then hdr.outputSize else 0)

/-- Decode the samples of a stereo frame and write them. -/
def stereoBody (hdr : SubframeHeader) (readsamplesize : Word) : Decode Nat := do
  let mix ← readStereo hdr readsamplesize
  let ok ← writeStereo hdr mix
  pure (if ok then hdr.outputSize else 0)

/-- The outcome of a computation on a frame: the output, and the bytes written or that the
call panicked. -/
def outcome (run : Option Nat × FrameState) : List UInt8 × Option Nat := (run.2.output, run.1)

def Plan.run (dec : AlacDecoder) (output : List UInt8) : Plan → List UInt8 × Option Nat
  | .nothing => (output, some 0)
  | .mono hdr r => outcome (monoBody hdr (monoSize dec hdr) ⟨dec, r, output⟩)
  | .stereo hdr r => outcome (stereoBody hdr (stereoSize dec hdr) ⟨dec, r, output⟩)

/-- `decode_frame` looks at the flag and the size of what it called. -/
def reported (m : Decode (Bool × Nat)) : Decode Nat :=
  m >>= fun result => pure (if result.1 then result.2 else 0)

theorem openSubframe_bind {α : Type} (s : FrameState) (f : SubframeHeader × Verdict → Decode α) :
    (openSubframe >>= f) s =
      f ((s.dec.header s.reader).1, (s.dec.header s.reader).1.verdict s.dec s.output.length)
        (s.setReader (s.dec.header s.reader).2) := rfl

theorem reported_decodeMono (s : FrameState) :
    outcome (reported decodeMono s) =
      (Plan.checked ((s.dec.header s.reader).1.verdict s.dec s.output.length)
        (.mono (s.dec.header s.reader).1 (s.dec.header s.reader).2)).run s.dec s.output := by
  rw [reported, decodeMono, bind_assoc, openSubframe_bind]
  cases (s.dec.header s.reader).1.verdict s.dec s.output.length with
  | refused => rfl
  | empty => rfl
  | decodes =>
    simp only [bind_assoc, pure_bind]
    rfl

theorem reported_decodeStereo (s : FrameState) :
    outcome (reported decodeStereo s) =
      (Plan.checked ((s.dec.header s.reader).1.verdict s.dec s.output.length)
        (.stereo (s.dec.header s.reader).1 (s.dec.header s.reader).2)).run s.dec s.output := by
  rw [reported, decodeStereo, bind_assoc, openSubframe_bind]
  cases (s.dec.header s.reader).1.verdict s.dec s.output.length with
  | refused => rfl
  | empty => rfl
  | decodes =>
    simp only [bind_assoc, pure_bind]
    rfl

theorem reported_decodeElement (channels : Word) (s : FrameState) :
    outcome (reported (decodeElement channels) s) =
      (s.dec.elementPlan channels s.reader s.output.length).run s.dec s.output := by
  rw [reported, decodeElement, bind_assoc, view_bind, AlacDecoder.elementPlan]
  split
  · split
    · rfl
    · exact reported_decodeMono s
  · split
    · split
      · rfl
      · exact reported_decodeStereo s
    · rfl

/-- `decode_frame` does what the plan of the frame says. -/
theorem decodeFrame_plan (dec : AlacDecoder) (input output : List UInt8) :
    (dec.decodeFrame input output).2 = (dec.plan input output.length).run dec output := by
  rw [AlacDecoder.plan]
  show outcome (decodeBody ⟨dec, BitReader.new input, output⟩) = _
  rw [decodeBody, view_bind]
  dsimp only [id]
  split
  · rfl
  · rw [Decode.readbits_bind]
    split
    · rfl
    · exact reported_decodeElement _ _

/-- What the checks of a header leave to the code behind them. -/
structure Opened (dec : AlacDecoder) (hdr : SubframeHeader) (room : Nat) : Prop where
  samples : 0 < hdr.outputSamples
  inside : hdr.outputSamples ≤ dec.maxSamplesPerFrame.toNat
  size : hdr.outputSize = hdr.outputSamples * dec.bytesPerSample.toNat
  room : hdr.outputSize ≤ room

variable {dec : AlacDecoder} {hdr : SubframeHeader} {r : BitReader} {input output : List UInt8}

/-- The size of a frame is its number of samples, whether the frame gives it or not. -/
theorem header_size (dec : AlacDecoder) (r : BitReader) :
    (dec.header r).1.outputSize = (dec.header r).1.outputSamples * dec.bytesPerSample.toNat := by
  rw [AlacDecoder.header, parseSubframeHeader]
  dsimp only
  split <;> rfl

theorem opened_of_verdict {room : Nat} (passed : (dec.header r).1.verdict dec room = .decodes) :
    Opened dec (dec.header r).1 room := by
  rw [SubframeHeader.verdict] at passed
  split at passed
  · cases passed
  · rename_i small
    split at passed
    · cases passed
    · rename_i nonzero
      exact ⟨by omega, by omega, header_size dec r, by omega⟩

/-- A header is only behind a plan if it has passed its checks. -/
theorem checked_cases (verdict : Verdict) (p : Plan) :
    Plan.checked verdict p = .nothing ∨ (verdict = .decodes ∧ Plan.checked verdict p = p) := by
  cases verdict with
  | refused => exact .inl rfl
  | empty => exact .inl rfl
  | decodes => exact .inr ⟨rfl, rfl⟩

theorem plan_cases (dec : AlacDecoder) (input : List UInt8) (room : Nat) :
    let r := ((BitReader.new input).readbits 3).2
    dec.plan input room = .nothing ∨
      ((dec.header r).1.verdict dec room = .decodes ∧
        ((dec.numChannels = 1 ∧
            dec.plan input room = .mono (dec.header r).1 (dec.header r).2) ∨
          (dec.numChannels = 2 ∧
            dec.plan input room = .stereo (dec.header r).1 (dec.header r).2))) := by
  intro r
  rw [AlacDecoder.plan]
  split
  · exact .inl rfl
  · split
    · exact .inl rfl
    · rw [AlacDecoder.elementPlan]
      split
      · split
        · exact .inl rfl
        · rename_i channels
          rcases checked_cases ((dec.header r).1.verdict dec room)
            (.mono (dec.header r).1 (dec.header r).2) with h | ⟨passed, h⟩
          · exact .inl h
          · exact .inr ⟨passed, .inl ⟨not_not.mp channels, h⟩⟩
      · split
        · split
          · exact .inl rfl
          · rename_i channels
            rcases checked_cases ((dec.header r).1.verdict dec room)
              (.stereo (dec.header r).1 (dec.header r).2) with h | ⟨passed, h⟩
            · exact .inl h
            · exact .inr ⟨passed, .inr ⟨not_not.mp channels, h⟩⟩
        · exact .inl rfl

/-- The number of uncompressed bytes comes from a field of two bits. -/
theorem uncompressedBytes_lt (dec : AlacDecoder) (r : BitReader) :
    (dec.header r).1.uncompressedBytes.toNat < 4 := by
  rw [AlacDecoder.header, parseSubframeHeader]
  dsimp only
  split
  · exact readbits_lt _ 2 (by decide)
  · exact readbits_lt _ 2 (by decide)

/-- A plan for one channel comes from a decoder for one channel. -/
theorem plan_mono {room : Nat} (h : dec.plan input room = .mono hdr r) :
    dec.numChannels = 1 ∧ Opened dec hdr room := by
  rcases plan_cases dec input room with none | ⟨passed, ⟨channels, plan⟩ | ⟨-, plan⟩⟩
  · cases none.symm.trans h
  · cases plan.symm.trans h
    exact ⟨channels, opened_of_verdict passed⟩
  · cases plan.symm.trans h

/-- A plan for two channels comes from a decoder for two channels. -/
theorem plan_stereo {room : Nat} (h : dec.plan input room = .stereo hdr r) :
    dec.numChannels = 2 ∧ Opened dec hdr room ∧ hdr.uncompressedBytes.toNat < 4 := by
  rcases plan_cases dec input room with none | ⟨passed, ⟨-, plan⟩ | ⟨channels, plan⟩⟩
  · cases none.symm.trans h
  · cases plan.symm.trans h
  · cases plan.symm.trans h
    exact ⟨channels, opened_of_verdict passed, uncompressedBytes_lt dec _⟩

section Sizes

variable (ready : Ready dec)
include ready

theorem bytesPerSample_16 (size : dec.sampleSizeConfig = 16) :
    dec.bytesPerSample.toNat = 2 * dec.numChannels.toNat := by
  rw [ready.bytes, AlacDecoder.sampleSize, size]
  rcases ready.channels with h | h <;> rw [h] <;> rfl

theorem bytesPerSample_24 (size : dec.sampleSizeConfig = 24) :
    dec.bytesPerSample.toNat = 3 * dec.numChannels.toNat := by
  rw [ready.bytes, AlacDecoder.sampleSize, size]
  rcases ready.channels with h | h <;> rw [h] <;> rfl

theorem sampleSizeConfig_24 (other : dec.sampleSizeConfig ≠ 16) : dec.sampleSizeConfig = 24 :=
  ready.sampleSize.resolve_left other

end Sizes

theorem length_monoSamples24 (dec : AlacDecoder) (hdr : SubframeHeader) (r : BitReader) :
    (monoSamples24 hdr (monoContent dec hdr r)).length = hdr.outputSamples := by
  rw [monoSamples24]
  split
  · rename_i extra
    have low : (monoContent dec hdr r).lowA.length = hdr.outputSamples := by
      rw [monoContent, if_pos extra.2]
      show (monoLow hdr (monoPredictor r).2).1.length = _
      rw [monoLow, if_pos extra.1]
      exact length_produce _ _ _
    rw [List.length_zipWith, length_monoContent, low, Nat.min_self]
  · exact length_monoContent dec hdr r

theorem length_unmixed (dec : AlacDecoder) (hdr : SubframeHeader) (r : BitReader) :
    (unmixed (stereoContent dec hdr r)).length = hdr.outputSamples := by
  obtain ⟨a, b⟩ := length_stereoContent dec hdr r
  rw [unmixed, List.length_zipWith, a, b, Nat.min_self]

theorem length_stereoSamples24 (ready : Ready dec)
    (inside : hdr.outputSamples ≤ dec.maxSamplesPerFrame.toNat) (r : BitReader) :
    (stereoSamples24 hdr (stereoContent dec hdr r)).length = hdr.outputSamples := by
  rw [stereoSamples24]
  split
  · rename_i extra
    have low : (stereoContent dec hdr r).lowA.length = hdr.outputSamples ∧
        (stereoContent dec hdr r).lowB.length = hdr.outputSamples := by
      rw [stereoContent]
      split
      · have pairs : (stereoLow hdr (stereoPredictors r).2).1.length = hdr.outputSamples := by
          rw [stereoLow, if_pos extra]
          exact length_produce _ _ _
        exact ⟨(List.length_map _).trans pairs, (List.length_map _).trans pairs⟩
      · refine ⟨List.length_take_of_le ?_, List.length_take_of_le ?_⟩
        · rw [ready.uncompressedA]
          exact inside
        · rw [ready.uncompressedB]
          exact inside
    rw [List.length_zipWith, length_unmixed, List.length_zip, low.1, low.2, Nat.min_self,
      Nat.min_self]
  · exact length_unmixed dec hdr r

/-- A mono frame fills its share of the output. -/
theorem length_monoBytes (ready : Ready dec) (channels : dec.numChannels = 1)
    (hdr : SubframeHeader) (r : BitReader) :
    (monoBytes dec hdr (monoContent dec hdr r)).length =
      hdr.outputSamples * dec.bytesPerSample.toNat := by
  have one : dec.numChannels.toNat = 1 := by rw [channels]; rfl
  rw [monoBytes]
  split
  · rename_i size
    rw [length_flatMap_const length_le16, length_monoContent, bytesPerSample_16 ready size, one]
  · rename_i other
    rw [length_flatMap_const length_le24, length_monoSamples24,
      bytesPerSample_24 ready (sampleSizeConfig_24 ready other), one]

/-- A stereo frame fills its share of the output. -/
theorem length_stereoBytes (ready : Ready dec) (channels : dec.numChannels = 2)
    (inside : hdr.outputSamples ≤ dec.maxSamplesPerFrame.toNat) (r : BitReader) :
    (stereoBytes dec hdr (stereoContent dec hdr r)).length =
      hdr.outputSamples * dec.bytesPerSample.toNat := by
  have two : dec.numChannels.toNat = 2 := by rw [channels]; rfl
  rw [stereoBytes]
  split
  · rename_i size
    rw [length_flatMap_const length_pairBytes_le16, length_unmixed,
      bytesPerSample_16 ready size, two]
  · rename_i other
    rw [length_flatMap_const length_pairBytes_le24, length_stereoSamples24 ready inside,
      bytesPerSample_24 ready (sampleSizeConfig_24 ready other), two]

theorem writeMono_run {s : FrameState} {c : Content} (ready : Ready s.dec)
    (channels : s.dec.numChannels = 1) (front : c.a <+: s.dec.outputsamplesBufferA)
    (low : c.lowA <+: s.dec.uncompressedBytesBufferA) (count : c.a.length = hdr.outputSamples)
    (count24 : (monoSamples24 hdr c).length = hdr.outputSamples)
    (room : hdr.outputSamples * s.dec.bytesPerSample.toNat ≤ s.output.length) :
    writeMono hdr s = (some true, s.setOutput (overwrite (monoBytes s.dec hdr c) s.output)) := by
  have one : s.dec.numChannels.toNat = 1 := by rw [channels]; rfl
  rw [writeMono, view_bind, monoBytes, one]
  split
  · rename_i size
    rw [bytesPerSample_16 ready size, one] at room
    exact bind_of_some (writeMono16_run front count room) _
  · rename_i other
    have size := sampleSizeConfig_24 ready other
    rw [bytesPerSample_24 ready size, one] at room
    rw [if_pos size]
    exact bind_of_some (writeMono24_run front low count24 room) _

theorem writeStereo_run {s : FrameState} {c : Content} (ready : Ready s.dec)
    (channels : s.dec.numChannels = 2) (frontA : c.a <+: s.dec.outputsamplesBufferA)
    (frontB : c.b <+: s.dec.outputsamplesBufferB) (lowA : c.lowA <+: s.dec.uncompressedBytesBufferA)
    (lowB : c.lowB <+: s.dec.uncompressedBytesBufferB)
    (count : (unmixed c).length = hdr.outputSamples)
    (count24 : (stereoSamples24 hdr c).length = hdr.outputSamples)
    (room : hdr.outputSamples * s.dec.bytesPerSample.toNat ≤ s.output.length) :
    writeStereo hdr (c.shift, c.leftweight) s =
      (some true, s.setOutput (overwrite (stereoBytes s.dec hdr c) s.output)) := by
  have two : s.dec.numChannels.toNat = 2 := by rw [channels]; rfl
  rw [writeStereo, view_bind, stereoBytes, two]
  split
  · rename_i size
    rw [bytesPerSample_16 ready size, two] at room
    exact bind_of_some (deinterlace16_run frontA frontB count room) _
  · rename_i other
    have size := sampleSizeConfig_24 ready other
    rw [bytesPerSample_24 ready size, two] at room
    rw [if_pos size]
    exact bind_of_some (deinterlace24_run frontA frontB lowA lowB count24 room) _

/-- The bytes of a frame do not depend on the buffers. -/
theorem monoBytes_congr {dec' : AlacDecoder} (same : dec'.blank = dec.blank)
    (hdr : SubframeHeader) (c : Content) : monoBytes dec' hdr c = monoBytes dec hdr c := by
  have bytes := congrArg (fun d : AlacDecoder => monoBytes d hdr c) same
  exact bytes

theorem stereoBytes_congr {dec' : AlacDecoder} (same : dec'.blank = dec.blank)
    (hdr : SubframeHeader) (c : Content) : stereoBytes dec' hdr c = stereoBytes dec hdr c := by
  have bytes := congrArg (fun d : AlacDecoder => stereoBytes d hdr c) same
  exact bytes

theorem numChannels_congr {dec' : AlacDecoder} (same : dec'.blank = dec.blank) :
    dec'.numChannels = dec.numChannels := by
  have field := congrArg AlacDecoder.numChannels same
  exact field

theorem bytesPerSample_congr {dec' : AlacDecoder} (same : dec'.blank = dec.blank) :
    dec'.bytesPerSample = dec.bytesPerSample := by
  have field := congrArg AlacDecoder.bytesPerSample same
  exact field

/-- The room for a frame is there whatever the decoder has read since. -/
theorem Opened.room_congr {dec' : AlacDecoder} {output' : List UInt8}
    (opened : Opened dec hdr output.length) (blank : dec'.blank = dec.blank)
    (same : output' = output) : hdr.outputSamples * dec'.bytesPerSample.toNat ≤ output'.length := by
  rw [same, bytesPerSample_congr blank, ← opened.size]
  exact opened.room

/-- A mono frame whose order fits is decoded. -/
theorem mono_outcome (ready : Ready dec) (channels : dec.numChannels = 1)
    (opened : Opened dec hdr output.length)
    (fits : OrdersFit (monoOrders hdr r) hdr.outputSamples) :
    (Plan.mono hdr r).run dec output =
      (overwrite (monoBytes dec hdr (monoContent dec hdr r)) output, some hdr.outputSize) := by
  obtain ⟨_, t, run, read⟩ := readMono_ensures (s := ⟨dec, r, output⟩) ready opened.inside fits
  have blank : t.dec.blank = dec.blank := read.blank
  have same : t.output = output := read.output
  have written := writeMono_run (ready.congr blank) ((numChannels_congr blank).trans channels)
    read.a read.lowA (length_monoContent _ _ _) (length_monoSamples24 _ _ _)
    (opened.room_congr blank same)
  rw [Plan.run, monoBody, bind_of_some run, bind_of_some written, monoBytes_congr blank, same]
  rfl

/-- A stereo frame whose orders fit is decoded. -/
theorem stereo_outcome (ready : Ready dec) (channels : dec.numChannels = 2)
    (opened : Opened dec hdr output.length)
    (fits : OrdersFit (stereoOrders hdr r) hdr.outputSamples) :
    (Plan.stereo hdr r).run dec output =
      (overwrite (stereoBytes dec hdr (stereoContent dec hdr r)) output, some hdr.outputSize) := by
  obtain ⟨_, t, run, rfl, read⟩ :=
    readStereo_ensures (s := ⟨dec, r, output⟩) ready opened.inside fits
  have blank : t.dec.blank = dec.blank := read.blank
  have same : t.output = output := read.output
  have written := writeStereo_run (ready.congr blank) ((numChannels_congr blank).trans channels)
    read.a read.b read.lowA read.lowB (length_unmixed _ _ _)
    (length_stereoSamples24 ready opened.inside _) (opened.room_congr blank same)
  rw [Plan.run, stereoBody, bind_of_some run, bind_of_some written, stereoBytes_congr blank, same]
  rfl

/-- A mono frame whose order does not fit is lost to a panic. -/
theorem mono_panic (ready : Ready dec) (opened : Opened dec hdr output.length)
    (misfit : ¬ OrdersFit (monoOrders hdr r) hdr.outputSamples) :
    (Plan.mono hdr r).run dec output = (output, none) := by
  have panics : (readMono hdr (monoSize dec hdr) ⟨dec, r, output⟩).1 = none := by
    rw [← Option.not_isSome_iff_eq_none]
    intro returns
    exact misfit (ordersFit_of_readMono (s := ⟨dec, r, output⟩) ready opened.samples
      opened.inside returns)
  have steady : Steady dec.blank output (readMono hdr (monoSize dec hdr) ⟨dec, r, output⟩).2 :=
    keeps_readMono _ _ _ ⟨rfl, rfl⟩
  rw [Plan.run, monoBody, bind_of_none panics, outcome, steady.2]

/-- A stereo frame with an order that does not fit is lost to a panic. -/
theorem stereo_panic (ready : Ready dec) (opened : Opened dec hdr output.length)
    (misfit : ¬ OrdersFit (stereoOrders hdr r) hdr.outputSamples) :
    (Plan.stereo hdr r).run dec output = (output, none) := by
  have panics : (readStereo hdr (stereoSize dec hdr) ⟨dec, r, output⟩).1 = none := by
    rw [← Option.not_isSome_iff_eq_none]
    intro returns
    exact misfit (ordersFit_of_readStereo (s := ⟨dec, r, output⟩) ready opened.samples
      opened.inside returns)
  have steady : Steady dec.blank output
      (readStereo hdr (stereoSize dec hdr) ⟨dec, r, output⟩).2 :=
    keeps_readStereo _ _ _ ⟨rfl, rfl⟩
  rw [Plan.run, stereoBody, bind_of_none panics, outcome, steady.2]

end Shairplay.Codec
