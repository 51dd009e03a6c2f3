import Shairplay.Codec.Alac.Lossless
import Shairplay.Codec.Alac.Safety
import Shairplay.Raop.Buffer

/-!
# The ALAC decoder behind the packet buffer

The buffer configures the decoder from the `fmtp` attribute and gives it an output of two
bytes a sample. In that output the decoder writes whole frames of 16-bit samples or nothing:
24-bit frames do not have room, and any other format leaves the decoder disabled.
-/

namespace Shairplay.Raop

open Lib
open Shairplay.Codec (AlacDecoder Supports beWord setInfo_supported decodeFrame_plan
  decodeFrame_writes bytesPerSample_16 bytesPerSample_24 numChannels_congr bytesPerSample_congr
  sampleSizeConfig_congr)
open Shairplay.Codec.AlacDecoder (Ready)

instance : AlacDecode AlacDecoder where
  new sampleSize numChannels :=
    .new (sampleSize.toBitVec.setWidth 32) (numChannels.toBitVec.setWidth 32)
  setInfo := AlacDecoder.setInfo
  decodeFrame := AlacDecoder.decodeFrame

namespace AlacConfig

/-- The decoder of a session before its first frame. -/
def decoder (config : AlacConfig) : AlacDecoder :=
  AlacDecode.setInfo (AlacDecode.new config.bitDepth config.numChannels) (buildDecoderInfo config)

theorem decoder_eq (config : AlacConfig) : config.decoder =
    (AlacDecode.new config.bitDepth config.numChannels : AlacDecoder).setInfo
      (buildDecoderInfo config) := rfl

/-- A depth and a number of channels that the decoder knows. -/
def Supported (config : AlacConfig) : Prop :=
  (config.bitDepth = 16 ∨ config.bitDepth = 24) ∧ (config.numChannels = 1 ∨ config.numChannels = 2)

def frameSamples (config : AlacConfig) : Nat :=
  config.frameLength.toNat * config.numChannels.toNat

variable {config : AlacConfig}

/-- What the parser has checked, with the numbers that the attribute announces. -/
structure Announces (fmtp : String) (config : AlacConfig) (frameLength bitDepth channels : Nat) :
    Prop where
  frames_parsed :
    Str.parseUnsigned (2 ^ 32) ((fmtp.toList.splitOn ' ').getD 1 []) = some frameLength
  depth_parsed : Str.parseUnsigned (2 ^ 32) ((fmtp.toList.splitOn ' ').getD 3 []) = some bitDepth
  channels_parsed :
    Str.parseUnsigned (2 ^ 32) ((fmtp.toList.splitOn ' ').getD 7 []) = some channels
  frames_eq : config.frameLength = UInt32.ofNat frameLength
  depth_eq : config.bitDepth = (UInt32.ofNat bitDepth).toUInt8
  channels_eq : config.numChannels = (UInt32.ofNat channels).toUInt8
  frames_ne : config.frameLength ≠ 0
  channels_ne : config.numChannels ≠ 0

theorem announces_of_parseFmtp {fmtp : String} (parsed : parseFmtp fmtp = some config) :
    ∃ frameLength bitDepth channels, Announces fmtp config frameLength bitDepth channels := by
  unfold parseFmtp at parsed
  dsimp only at parsed
  split at parsed
  · cases parsed
  · -- the attributes are read one after the other
    obtain ⟨_, read1, parsed⟩ := Option.bind_eq_some_iff.mp parsed
    obtain ⟨_, -, parsed⟩ := Option.bind_eq_some_iff.mp parsed
    obtain ⟨_, read3, parsed⟩ := Option.bind_eq_some_iff.mp parsed
    obtain ⟨_, -, parsed⟩ := Option.bind_eq_some_iff.mp parsed
    obtain ⟨_, -, parsed⟩ := Option.bind_eq_some_iff.mp parsed
    obtain ⟨_, -, parsed⟩ := Option.bind_eq_some_iff.mp parsed
    obtain ⟨_, read7, parsed⟩ := Option.bind_eq_some_iff.mp parsed
    obtain ⟨_, -, parsed⟩ := Option.bind_eq_some_iff.mp parsed
    obtain ⟨_, -, parsed⟩ := Option.bind_eq_some_iff.mp parsed
    obtain ⟨_, -, parsed⟩ := Option.bind_eq_some_iff.mp parsed
    obtain ⟨_, -, checked⟩ := Option.bind_eq_some_iff.mp parsed
    obtain ⟨frameLength, frames, rfl⟩ := Option.map_eq_some_iff.mp read1
    obtain ⟨bitDepth, depth, rfl⟩ := Option.map_eq_some_iff.mp read3
    obtain ⟨channels, number, rfl⟩ := Option.map_eq_some_iff.mp read7
    split at checked
    · cases checked
    · rename_i valid
      simp only [not_or] at valid
      cases checked
      exact ⟨frameLength, bitDepth, channels, frames, depth, number, rfl, rfl, rfl, valid.1,
        valid.2.1⟩

/-- The bytes of a number, most significant first. -/
theorem append_beBytes32 (n : UInt32) :
    (n >>> 24).toUInt8.toBitVec ++ (n >>> 16).toUInt8.toBitVec ++ (n >>> 8).toUInt8.toBitVec ++
      n.toUInt8.toBitVec = n.toBitVec := by
  apply BitVec.eq_of_getLsbD_eq
  intro i inside
  simp only [BitVec.getLsbD_append, UInt32.toBitVec_toUInt8, UInt32.toBitVec_shiftRight,
    BitVec.getLsbD_setWidth]
  by_cases first : i < 8
  · simp [first]
  · by_cases second : i - 8 < 8
    · simp [first, second, show 8 + (i - 8) = i by omega]
    · by_cases third : i - 8 - 8 < 8
      · simp [first, second, third, show 16 + (i - 8 - 8) = i by omega]
      · simp [first, second, third, show 24 + (i - 8 - 8 - 8) = i by omega,
          show i - 8 - 8 - 8 < 8 by omega]

theorem frameLength_info (config : AlacConfig) :
    Shairplay.Codec.frameLength (buildDecoderInfo config) = config.frameLength.toNat :=
  congrArg BitVec.toNat (append_beBytes32 config.frameLength)

theorem Supported.info (supported : config.Supported) :
    Supports (buildDecoderInfo config) config.bitDepth.toNat config.numChannels.toNat where
  length := Nat.le_refl _
  size := rfl
  depth := by
    rcases supported.1 with depth | depth <;> rw [depth]
    · exact .inl rfl
    · exact .inr rfl
  number := rfl
  channels := by
    rcases supported.2 with channels | channels <;> rw [channels]
    · exact .inl rfl
    · exact .inr rfl

/-- Outside the profile the decoder is disabled. -/
theorem disabled_of_not_supported (unsupported : ¬ config.Supported) :
    config.decoder.maxSamplesPerFrame = 0 := by
  have outside : (config.bitDepth.toBitVec ≠ 16 ∧ config.bitDepth.toBitVec ≠ 24) ∨
      ¬ (1 ≤ config.numChannels.toBitVec ∧ config.numChannels.toBitVec ≤ 2) := by
    by_contra inside
    rw [not_or, not_not] at inside
    apply unsupported
    constructor
    · by_contra depth
      rw [not_or] at depth
      apply inside.1
      exact ⟨fun same => depth.1 (UInt8.toBitVec_inj.mp same),
        fun same => depth.2 (UInt8.toBitVec_inj.mp same)⟩
    · have low : 1 ≤ config.numChannels.toNat := inside.2.1
      have high : config.numChannels.toNat ≤ 2 := inside.2.2
      rcases (show config.numChannels.toNat = 1 ∨ config.numChannels.toNat = 2 by omega) with h | h
      · exact .inl (UInt8.toNat_inj.mp h)
      · exact .inr (UInt8.toNat_inj.mp h)
  have length : (buildDecoderInfo config).length = 48 := rfl
  have number : (buildDecoderInfo config).getD 33 0 = config.numChannels := rfl
  rw [decoder_eq, AlacDecoder.setInfo, length, if_neg (Nat.lt_irrefl 48), number,
    AlacDecoder.configure]
  split
  · rfl
  · rename_i inside
    exact absurd outside inside

/-- What a decoder has become after some frames of its session. -/
def Serves (config : AlacConfig) (dec : AlacDecoder) : Prop := dec.blank = config.decoder.blank

theorem Serves.decodeFrame {dec : AlacDecoder} (serves : config.Serves dec)
    (input output : List UInt8) : config.Serves (AlacDecode.decodeFrame dec input output).1 :=
  (Shairplay.Codec.blank_decodeFrame dec input output).trans serves

/-- The settings of a decoder for a supported configuration. -/
structure Settings (config : AlacConfig) (dec : AlacDecoder) : Prop where
  ready : Ready dec
  depth : dec.sampleSizeConfig.toNat = config.bitDepth.toNat
  channels : dec.numChannels.toNat = config.numChannels.toNat
  frames : dec.maxSamplesPerFrame.toNat = config.frameLength.toNat

theorem Serves.settings {dec : AlacDecoder} (serves : config.Serves dec)
    (supported : config.Supported) (frames : config.frameLength ≠ 0) : Settings config dec := by
  have positive : 0 < Shairplay.Codec.frameLength (buildDecoderInfo config) := by
    rw [frameLength_info]
    exact Nat.pos_of_ne_zero fun zero => frames (UInt32.toNat_inj.mp zero)
  obtain ⟨ready, depth, channels, count⟩ := setInfo_supported supported.info positive
    (AlacDecode.new config.bitDepth config.numChannels)
  rw [← decoder_eq] at ready depth channels count
  refine ⟨ready.congr serves, ?_, ?_, ?_⟩
  · rw [sampleSizeConfig_congr serves]
    exact depth
  · rw [numChannels_congr serves]
    exact channels
  · rw [AlacDecoder.maxSamplesPerFrame_congr serves]
    exact count.trans (frameLength_info config)

/-- A session decodes with the decoder itself. -/
theorem decodeFrame_eq (dec : AlacDecoder) (input output : List UInt8) :
    AlacDecode.decodeFrame dec input output = dec.decodeFrame input output := rfl

theorem writes_nothing {dec : AlacDecoder} {input output : List UInt8}
    (nothing : dec.plan input output.length = .nothing) :
    (AlacDecode.decodeFrame dec input output).2.2.getD 0 = 0 := by
  rw [decodeFrame_eq, decodeFrame_plan, nothing]
  rfl

/-- Only 16-bit frames have room in an output of two bytes a sample. A frame that is written
there is one of whole samples of all channels. -/
theorem Serves.writes {dec : AlacDecoder} (serves : config.Serves dec)
    (frames : config.frameLength ≠ 0) (input : List UInt8) {output : List UInt8}
    (room : output.length = config.frameSamples * 2) :
    (AlacDecode.decodeFrame dec input output).2.2.getD 0 = 0 ∨
      config.bitDepth = 16 ∧ (config.numChannels = 1 ∨ config.numChannels = 2) ∧
      ∃ m, 0 < m ∧ m ≤ config.frameLength.toNat ∧
        (AlacDecode.decodeFrame dec input output).2.2 =
          some (m * config.numChannels.toNat * 2) ∧
        (AlacDecode.decodeFrame dec input output).2.1.length = output.length := by
  by_cases supported : config.Supported
  · have settings := serves.settings supported frames
    have written := decodeFrame_writes settings.ready input output
    rcases supported.1 with depth | depth
    · have size : dec.sampleSizeConfig = 16 :=
        BitVec.eq_of_toNat_eq (by rw [settings.depth, depth]; rfl)
      rw [bytesPerSample_16 settings.ready size, settings.channels, settings.frames] at written
      rcases written with nothing | ⟨m, positive, inside, -, result, length⟩
      · exact .inl nothing
      · rw [decodeFrame_eq]
        refine .inr ⟨depth, supported.2, m, positive, inside, ?_, length⟩
        rw [Nat.mul_assoc, Nat.mul_comm config.numChannels.toNat]
        exact result
    · -- a 24-bit frame has three bytes a sample
      have size : dec.sampleSizeConfig = 24 :=
        BitVec.eq_of_toNat_eq (by rw [settings.depth, depth]; rfl)
      have full : dec.maxSamplesPerFrame.toNat * dec.bytesPerSample.toNat =
          config.frameSamples * 3 := by
        rw [bytesPerSample_24 settings.ready size, settings.channels, settings.frames, frameSamples]
        ring
      have some : 0 < config.frameSamples := by
        apply Nat.mul_pos
        · exact Nat.pos_of_ne_zero fun zero => frames (UInt32.toNat_inj.mp zero)
        · rcases supported.2 with channels | channels <;> rw [channels] <;> decide
      have nothing : dec.plan input output.length = .nothing := by
        rw [AlacDecoder.plan]
        split
        · rfl
        · exact if_pos (by omega)
      exact .inl (writes_nothing nothing)
  · have disabled := (AlacDecoder.maxSamplesPerFrame_congr serves).trans
      (disabled_of_not_supported supported)
    exact .inl (writes_nothing (AlacDecoder.plan_disabled disabled _ _))

end AlacConfig

end Shairplay.Raop
