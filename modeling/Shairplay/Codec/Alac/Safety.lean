import Shairplay.Codec.Alac.Plan

/-!
# When a frame is lost to a panic

A decoder that `set_info` has configured is ready, or it is disabled and decodes nothing;
both survive every sequence of frames. A ready decoder leaves its buffers only in one
place: a compressed frame whose predictor has an order that is neither 0 nor 31 and not
below the number of samples. Everything else that the source indexes or slices is inside
its buffer, for every input.
-/

namespace Shairplay.Codec

open Lib Lib.Attempt

namespace AlacDecoder

variable {dec : AlacDecoder} {input output config : List UInt8}

theorem Ready.allocateBuffers (sampleSize : dec.sampleSizeConfig = 16 ∨ dec.sampleSizeConfig = 24)
    (channels : dec.numChannels = 1 ∨ dec.numChannels = 2)
    (bytes : dec.bytesPerSample = dec.sampleSize.sdiv 8 * dec.numChannels)
    (frames : dec.maxSamplesPerFrame ≠ 0) : Ready dec.allocateBuffers where
  sampleSize := sampleSize
  channels := channels
  bytes := bytes
  frames := frames
  predicterrorA := List.length_replicate
  predicterrorB := List.length_replicate
  outputsamplesA := List.length_replicate
  outputsamplesB := List.length_replicate
  uncompressedA := List.length_replicate
  uncompressedB := List.length_replicate

/-- The number of channels in the range that `set_info` accepts. -/
theorem channels_of_range {n : BitVec 8} (range : 1 ≤ n ∧ n ≤ 2) :
    n.setWidth 32 = (1 : Word) ∨ n.setWidth 32 = (2 : Word) := by
  have low : 1 ≤ n.toNat := range.1
  have high : n.toNat ≤ 2 := range.2
  have exact' : n = 1#8 ∨ n = 2#8 := by
    rcases (show n.toNat = 1 ∨ n.toNat = 2 by omega) with h | h
    · exact .inl (BitVec.eq_of_toNat_eq h)
    · exact .inr (BitVec.eq_of_toNat_eq h)
  rcases exact' with rfl | rfl
  · exact .inl rfl
  · exact .inr rfl

/-- A configuration is enabled or leaves the decoder without frames. -/
theorem ready_configure (dec : AlacDecoder) (numChannels : BitVec 8) :
    Ready (dec.configure numChannels) ∨ (dec.configure numChannels).maxSamplesPerFrame = 0 := by
  rw [configure]
  split
  · exact .inr rfl
  · rename_i profile
    obtain ⟨size, range⟩ := not_or.mp profile
    have size : dec.sampleSizeConfig = 16 ∨ dec.sampleSizeConfig = 24 := by
      by_contra neither
      exact size (not_or.mp neither)
    have channels := channels_of_range (not_not.mp range)
    rw [enable]
    split
    · rename_i disabled
      refine .inr (disabled.resolve_right fun negative => ?_)
      have negative : ((dec.sampleSizeConfig.setWidth 32 : Word).sdiv 8 *
        numChannels.setWidth 32).toInt ≤ 0 := negative
      rcases size with h | h <;> rcases channels with h' | h' <;>
        (rw [h, h'] at negative; exact absurd negative (by decide))
    · rename_i enabled
      exact .inl (.allocateBuffers size channels rfl (not_or.mp enabled).1)

/-- `set_info` makes a new decoder ready or leaves it without frames. -/
theorem ready_setInfo (fresh : dec.maxSamplesPerFrame = 0) (config : List UInt8) :
    Ready (dec.setInfo config) ∨ (dec.setInfo config).maxSamplesPerFrame = 0 := by
  rw [setInfo]
  split
  · exact .inr fresh
  · exact ready_configure _ _

/-- The decoder after a sequence of frames, each with the output it was given. -/
def after (dec : AlacDecoder) (frames : List (List UInt8 × List UInt8)) : AlacDecoder :=
  frames.foldl (fun d frame => (d.decodeFrame frame.1 frame.2).1) dec

/-- No sequence of frames changes the settings or the lengths of the buffers. -/
theorem blank_after (dec : AlacDecoder) (frames : List (List UInt8 × List UInt8)) :
    (dec.after frames).blank = dec.blank := by
  induction frames generalizing dec with
  | nil => rfl
  | cons frame frames ih => exact (ih _).trans (blank_decodeFrame dec frame.1 frame.2)

/-- The plan of a frame depends on the settings only. -/
theorem plan_congr {dec' : AlacDecoder} (same : dec'.blank = dec.blank) (input : List UInt8)
    (room : Nat) : dec'.plan input room = dec.plan input room := by
  have plans := congrArg (fun d : AlacDecoder => d.plan input room) same
  exact plans

/-- A decoder without frames asks for nothing. -/
theorem plan_disabled (disabled : dec.maxSamplesPerFrame = 0) (input : List UInt8) (room : Nat) :
    dec.plan input room = .nothing := by
  rw [plan, if_pos (.inl disabled)]

end AlacDecoder

open AlacDecoder (Ready)

/-- The orders of all predictors of a frame fit its number of samples. -/
def Plan.Fits : Plan → Prop
  | .nothing => True
  | .mono hdr r => OrdersFit (monoOrders hdr r) hdr.outputSamples
  | .stereo hdr r => OrdersFit (stereoOrders hdr r) hdr.outputSamples

instance : (p : Plan) → Decidable p.Fits
  | .nothing => inferInstanceAs (Decidable True)
  | .mono _ _ => inferInstanceAs (Decidable (OrdersFit _ _))
  | .stereo _ _ => inferInstanceAs (Decidable (OrdersFit _ _))

/-- A ready decoder returns from a frame exactly if the orders fit. -/
theorem isSome_decodeFrame_of_ready {dec : AlacDecoder} (ready : Ready dec)
    (input output : List UInt8) :
    (dec.decodeFrame input output).2.2.isSome ↔ (dec.plan input output.length).Fits := by
  rw [decodeFrame_plan]
  cases plan : dec.plan input output.length with
  | nothing => exact ⟨fun _ => trivial, fun _ => rfl⟩
  | mono hdr r =>
    obtain ⟨channels, opened⟩ := plan_mono plan
    by_cases fits : OrdersFit (monoOrders hdr r) hdr.outputSamples
    · rw [mono_outcome ready channels opened fits]
      exact ⟨fun _ => fits, fun _ => rfl⟩
    · rw [mono_panic ready opened fits]
      exact ⟨fun h => absurd h (by simp), fun h => absurd h fits⟩
  | stereo hdr r =>
    obtain ⟨channels, opened, -⟩ := plan_stereo plan
    by_cases fits : OrdersFit (stereoOrders hdr r) hdr.outputSamples
    · rw [stereo_outcome ready channels opened fits]
      exact ⟨fun _ => fits, fun _ => rfl⟩
    · rw [stereo_panic ready opened fits]
      exact ⟨fun h => absurd h (by simp), fun h => absurd h fits⟩

/-- A ready decoder writes nothing, or whole samples of all channels inside the output. -/
theorem decodeFrame_writes {dec : AlacDecoder} (ready : Ready dec) (input output : List UInt8) :
    (dec.decodeFrame input output).2.2.getD 0 = 0 ∨
      ∃ m, 0 < m ∧ m ≤ dec.maxSamplesPerFrame.toNat ∧
        m * dec.bytesPerSample.toNat ≤ output.length ∧
        (dec.decodeFrame input output).2.2 = some (m * dec.bytesPerSample.toNat) ∧
        (dec.decodeFrame input output).2.1.length = output.length := by
  rw [decodeFrame_plan]
  cases plan : dec.plan input output.length with
  | nothing => exact .inl rfl
  | mono hdr r =>
    obtain ⟨channels, opened⟩ := plan_mono plan
    have room := opened.size ▸ opened.room
    by_cases fits : OrdersFit (monoOrders hdr r) hdr.outputSamples
    · rw [mono_outcome ready channels opened fits, opened.size]
      refine .inr ⟨_, opened.samples, opened.inside, room, rfl, length_overwrite ?_⟩
      rw [length_monoBytes ready channels]
      exact room
    · rw [mono_panic ready opened fits]
      exact .inl rfl
  | stereo hdr r =>
    obtain ⟨channels, opened, -⟩ := plan_stereo plan
    have room := opened.size ▸ opened.room
    by_cases fits : OrdersFit (stereoOrders hdr r) hdr.outputSamples
    · rw [stereo_outcome ready channels opened fits, opened.size]
      refine .inr ⟨_, opened.samples, opened.inside, room, rfl, length_overwrite ?_⟩
      rw [length_stereoBytes ready channels opened.inside]
      exact room
    · rw [stereo_panic ready opened fits]
      exact .inl rfl

/-- For every configuration, every history and every output: `decode_frame` returns exactly
if the frame asks for nothing, stores its samples verbatim, or has only predictors whose
order is 0, 31, or below the number of samples. -/
theorem decodeFrame_returns_iff (sampleSize numChannels : Word) (config : List UInt8)
    (history : List (List UInt8 × List UInt8)) (input output : List UInt8) :
    let fresh := (AlacDecoder.new sampleSize numChannels).setInfo config
    ((fresh.after history).decodeFrame input output).2.2.isSome ↔
      (fresh.plan input output.length).Fits := by
  intro fresh
  have same := AlacDecoder.blank_after fresh history
  rw [← AlacDecoder.plan_congr same]
  have unconfigured : (AlacDecoder.new sampleSize numChannels).maxSamplesPerFrame = 0 := rfl
  rcases AlacDecoder.ready_setInfo unconfigured config with ready | disabled
  · exact isSome_decodeFrame_of_ready (ready.congr same) input output
  · have disabled' : (fresh.after history).maxSamplesPerFrame = 0 :=
      (AlacDecoder.maxSamplesPerFrame_congr same).trans disabled
    rw [decodeFrame_plan, AlacDecoder.plan_disabled disabled']
    exact ⟨fun _ => trivial, fun _ => rfl⟩

/-- A configuration of 16-bit mono frames of one sample. -/
def singleSampleConfig : List UInt8 :=
  List.replicate 27 0 ++ [1, 0, 16, 40, 10, 14, 1] ++ List.replicate 14 0

/-- A compressed mono frame with one coefficient. -/
def orderOneFrame : List UInt8 := [0, 0, 0, 0, 0, 0, 2, 0, 0]

/-- A frame of one sample whose predictor has order 1 is lost, although the output has room
for a full frame. -/
theorem orderOne_panics :
    let dec := (AlacDecoder.new 16 1).setInfo singleSampleConfig
    dec.maxSamplesPerFrame.toNat * dec.bytesPerSample.toNat = 2 ∧
      (dec.decodeFrame orderOneFrame [0, 0]).2.2 = none := by
  decide +kernel

end Shairplay.Codec
