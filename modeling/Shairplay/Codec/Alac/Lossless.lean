import Shairplay.Codec.Alac.Encoder
import Shairplay.Codec.Alac.Safety
import Shairplay.Lib.Bytes

/-!
# Compressed frames are lossless

Every block of samples has a compressed frame that `decode_frame` decodes to exactly that
block, for every choice of the predictor and Rice parameters that a frame can carry. The
frame is built with the encoder for channels, behind the headers that `decode_frame` reads.
-/

namespace Shairplay.Codec

open Lib Lib.Bits
open Lib.Bytes (leBytes)
open AlacDecoder (Ready)
open BitReader (seek readbits_field)

/-- How a channel is coded. The number of coefficients is the order of the predictor, which
has a field of five bits. -/
structure ChannelCoding where
  predQuant : Fin 16
  ricemod : Fin 8
  coefficients : List (BitVec 16)
  order_lt : coefficients.length < 32

namespace ChannelCoding

def order (coding : ChannelCoding) : Nat := coding.coefficients.length

/-- The header that the decoder reads for the channel. -/
def header (coding : ChannelCoding) : PredictorHeader where
  predQuant := BitVec.ofNat 32 coding.predQuant
  ricemod := BitVec.ofNat 32 coding.ricemod
  predNum := coding.order
  predTable := coding.coefficients ++ List.replicate (32 - coding.order) 0

def headerBits (coding : ChannelCoding) : List Bool :=
  field 4 0 ++ (field 4 coding.predQuant ++ (field 3 coding.ricemod ++ (field 5 coding.order ++
    coding.coefficients.flatMap fun c => field 16 c.toNat)))

/-- The code of the samples of the channel, with `n` bits for an error. -/
def code (coding : ChannelCoding) (dec : AlacDecoder) (n : Nat) (samples : List Word) : List Bool :=
  riceCode n (dec.riceParams coding.header) (dec.riceParams coding.header).initialHistory 0
    (errorsOf (BitVec.ofNat 32 n) coding.header.predQuant coding.order coding.header.predTable
      samples)

end ChannelCoding

/-- A block of samples of `w` bits for one or two channels, and how the channels are coded. -/
inductive Block (w : Nat)
  | mono (coding : ChannelCoding) (samples : List (BitVec w))
  | stereo (codingA codingB : ChannelCoding) (samples : List (BitVec w × BitVec w))

namespace Block

variable {w : Nat}

def channels : Block w → Nat
  | .mono _ _ => 1
  | .stereo _ _ _ => 2

/-- The number of samples in each channel. -/
def count : Block w → Nat
  | .mono _ samples => samples.length
  | .stereo _ _ samples => samples.length

def codings : Block w → List ChannelCoding
  | .mono coding _ => [coding]
  | .stereo codingA codingB _ => [codingA, codingB]

def sampleBytes (s : BitVec w) : List UInt8 := leBytes (w / 8) s.toNat

/-- The block as interleaved little-endian PCM. -/
def pcm : Block w → List UInt8
  | .mono _ samples => samples.flatMap sampleBytes
  | .stereo _ _ samples => samples.flatMap fun s => sampleBytes s.1 ++ sampleBytes s.2

/-- The headers of a compressed frame that gives its own number of samples, has no
uncompressed bytes and a left weight of zero. -/
def headerBits (block : Block w) : List Bool :=
  field 3 (block.channels - 1) ++ (field 4 0 ++ (field 12 0 ++ (field 1 1 ++ (field 2 0 ++
    (field 1 0 ++ (field 32 block.count ++ (field 8 0 ++ (field 8 0 ++
      block.codings.flatMap ChannelCoding.headerBits))))))))

/-- The codes of the channels. The channels of a stereo frame are coded with one more bit. -/
def payload (dec : AlacDecoder) : Block w → List Bool
  | .mono coding samples => coding.code dec w (samples.map (BitVec.signExtend 32))
  | .stereo codingA codingB samples =>
    codingA.code dec (w + 1) (samples.map fun s => s.1.signExtend 32) ++
      codingB.code dec (w + 1) (samples.map fun s => s.2.signExtend 32)

end Block

section Headers

variable {buf : List UInt8} {q : Nat}

theorem readMany_seek (values : List (BitVec 16))
    (held : Holds buf q (values.flatMap fun c => field 16 c.toNat)) :
    readMany 16 values.length (.seek buf q) =
      (values.map (BitVec.setWidth 32),
        .seek buf (q + (values.flatMap fun c => field 16 c.toNat).length)) := by
  apply BitReader.produce_seek _ values held
  intro c q held
  have read : (seek buf q).readbits 16 = _ :=
    readbits_field 16 held (by decide) c.isLt
  have word : (BitVec.ofNat 32 c.toNat : Word) = c.setWidth 32 := by simp
  rw [read, word, length_field]

theorem predictorHeader_seek (coding : ChannelCoding) (held : Holds buf q coding.headerBits) :
    predictorHeader (.seek buf q) = (coding.header, .seek buf (q + coding.headerBits.length)) := by
  simp only [ChannelCoding.headerBits, holds_append, length_field] at held
  obtain ⟨kind, quant, ricemod, order, table⟩ := held
  have kind : (seek buf q).readbits 4 = _ :=
    readbits_field 4 kind (by decide) (by decide)
  have quant : (seek buf (q + 4)).readbits 4 = _ :=
    readbits_field 4 quant (by decide) coding.predQuant.isLt
  have ricemod : (seek buf (q + 4 + 4)).readbits 3 = _ :=
    readbits_field 3 ricemod (by decide) coding.ricemod.isLt
  have order : (seek buf (q + 4 + 4 + 3)).readbits 5 = _ :=
    readbits_field 5 order (by decide) coding.order_lt
  have number : (BitVec.ofNat 32 coding.order : Word).toNat = coding.order := by
    rw [BitVec.toNat_ofNat]
    exact Nat.mod_eq_of_lt (Nat.lt_trans coding.order_lt (by decide))
  have back : (coding.coefficients.map (BitVec.setWidth 32)).map (BitVec.setWidth 16) =
      coding.coefficients := by
    rw [List.map_map]
    exact (List.map_congr_left fun c _ => by simp).trans (List.map_id _)
  rw [predictorHeader, kind]
  dsimp only
  rw [quant]
  dsimp only
  rw [ricemod]
  dsimp only
  rw [order]
  dsimp only
  rw [number, ChannelCoding.order, readMany_seek _ table]
  dsimp only
  rw [back]
  simp only [ChannelCoding.headerBits, List.length_append, length_field, ← Nat.add_assoc]
  rfl

/-- What the decoder reads of the header of a frame. -/
def Block.subframeHeader {w : Nat} (block : Block w) (bytesPerSample : Nat) : SubframeHeader where
  outputSamples := block.count
  outputSize := block.count * bytesPerSample
  uncompressedBytes := 0
  isNotCompressed := 0

/-- The header of an element behind its type: its instance, whether it gives its number of
samples, no low bytes apart, and whether it stores its samples verbatim. -/
def elementHeader (tag : Fin 16) (sized stored : Bool) (count : Nat) : List Bool :=
  field 4 tag ++ (field 12 0 ++ (field 1 sized.toNat ++ (field 2 0 ++ (field 1 stored.toNat ++
    if sized then field 32 count else []))))

/-- The header of an element is read back. One that does not give its number of samples has
the number that the decoder expects. -/
theorem parseSubframeHeader_seek {tag : Fin 16} {sized stored : Bool} {count : Nat}
    {outputSamples outputSize bytesPerSample : Nat} (small : count < 2 ^ 32)
    (expected : sized = false → outputSamples = count ∧ outputSize = count * bytesPerSample)
    (held : Holds buf q (elementHeader tag sized stored count)) :
    parseSubframeHeader outputSamples outputSize bytesPerSample (.seek buf q) =
      (⟨count, count * bytesPerSample, 0, BitVec.ofNat 32 stored.toNat⟩,
        .seek buf (q + (elementHeader tag sized stored count).length)) := by
  have flag (b : Bool) : b.toNat < 2 ^ 1 := Bool.toNat_lt b
  simp only [elementHeader, holds_append, length_field] at held
  obtain ⟨first, second, hasSize, bytes, verbatim, size⟩ := held
  have first : (seek buf q).readbits 4 = _ :=
    readbits_field 4 first (by decide) tag.isLt
  have second : (seek buf (q + 4)).readbits 12 = _ :=
    readbits_field 12 second (by decide) (by decide)
  have hasSize : (seek buf (q + 4 + 12)).readbits 1 = _ :=
    readbits_field 1 hasSize (by decide) (flag sized)
  have bytes : (seek buf (q + 4 + 12 + 1)).readbits 2 = _ :=
    readbits_field 2 bytes (by decide) (by decide)
  have verbatim : (seek buf (q + 4 + 12 + 1 + 2)).readbits 1 = _ :=
    readbits_field 1 verbatim (by decide) (flag stored)
  rw [parseSubframeHeader, first]
  dsimp only
  rw [second]
  dsimp only
  rw [hasSize]
  dsimp only
  rw [bytes]
  dsimp only
  rw [verbatim]
  dsimp only
  cases sized with
  | false =>
    obtain ⟨rfl, rfl⟩ := expected rfl
    rw [if_neg (by decide)]
    simp only [elementHeader, List.length_append, length_field]
    rfl
  | true =>
    have size : (seek buf (q + 4 + 12 + 1 + 2 + 1)).readbits 32 = _ :=
      readbits_field 32 size (by decide) small
    have number : (BitVec.ofNat 32 count : Word).toNat = count := by
      rw [BitVec.toNat_ofNat]
      exact Nat.mod_eq_of_lt small
    rw [if_pos (by decide), size]
    dsimp only
    rw [number]
    simp only [elementHeader, List.length_append, length_field]
    rfl

theorem skipInterlacing_seek (held : Holds buf q (field 8 0 ++ field 8 0)) :
    skipInterlacing (.seek buf q) = .seek buf (q + 16) ∧
      ((seek buf q).readbits 8).2.readbits 8 = (0, .seek buf (q + 16)) := by
  rw [holds_append, length_field] at held
  have shift : (seek buf q).readbits 8 = _ :=
    readbits_field 8 held.1 (by decide) (by decide)
  have leftweight : (seek buf (q + 8)).readbits 8 = _ :=
    readbits_field 8 held.2 (by decide) (by decide)
  rw [skipInterlacing, shift]
  dsimp only
  rw [leftweight]
  exact ⟨rfl, rfl⟩

end Headers

section Samples

variable {buf : List UInt8} {q n : Nat} {dec : AlacDecoder}

theorem channelSamples_code (coding : ChannelCoding) {samples : List Word} (low : 0 < n)
    (high : n ≤ 25) (narrow : ∀ x ∈ samples, Narrow n x) (short : samples.length ≤ 65536)
    (held : Holds buf q (coding.code dec n samples)) :
    channelSamples dec samples.length (BitVec.ofNat 32 n) coding.header (.seek buf q) =
      (samples, .seek buf (q + (coding.code dec n samples).length)) := by
  have wide : n ≤ 32 := by omega
  have length := length_errorsOf (BitVec.ofNat 32 n) coding.header.predQuant coding.order
    coding.header.predTable samples
  have errors := riceValues_riceCode low high (dec.riceParams coding.header)
    (dec.riceParams coding.header).initialHistory 0
    (narrow_errorsOf low wide coding.header.predQuant coding.order coding.header.predTable narrow)
    (by omega) (fun e _ => Nat.zero_le _) held
  rw [length] at errors
  rw [channelSamples, channelErrors, errors]
  dsimp only
  rw [ChannelCoding.code]
  exact congrArg (·, _) (predicted_errorsOf low wide _ _ _ narrow)

end Samples

section Bytes

variable {w : Nat}

theorem lowByte_shift (s : BitVec w) {x : Word} {j : Nat}
    (bits : ∀ i < 8, x.getLsbD i = s.getLsbD (j + i)) :
    lowByte x = UInt8.ofNat (s.toNat / 2 ^ j) := by
  apply UInt8.eq_of_toBitVec_eq
  show x.setWidth 8 = BitVec.ofNat 8 _
  apply BitVec.eq_of_getLsbD_eq
  intro i small
  rw [BitVec.getLsbD_setWidth, bits i small, BitVec.getLsbD_ofNat, Nat.testBit_div_two_pow,
    BitVec.getLsbD, Nat.add_comm]

theorem le16_signExtend (s : BitVec 16) : le16 (s.signExtend 32) = Block.sampleBytes s := by
  have low := lowByte_shift (x := s.signExtend 32) (j := 0) s fun i small => by
    rw [BitVec.getLsbD_signExtend]
    simp only [show i < 32 by omega, show i < 16 by omega, decide_true, if_true, Bool.true_and,
      Nat.zero_add]
  have high := lowByte_shift (x := (s.signExtend 32 : Word) >>> 8) (j := 8) s
    fun i small => by
      rw [BitVec.getLsbD_ushiftRight, BitVec.getLsbD_signExtend]
      simp only [show 8 + i < 32 by omega, show 8 + i < 16 by omega, decide_true, if_true,
        Bool.true_and]
  rw [le16, low, high, Nat.pow_zero, Nat.div_one]
  rfl

theorem le24_signExtend (s : BitVec 24) : le24 (s.signExtend 32) = Block.sampleBytes s := by
  have byte {j : Nat} (inside : j + 8 ≤ 24) (amount : Word) (given : amount.toNat = j) :
      lowByte (sar (s.signExtend 32) amount) = UInt8.ofNat (s.toNat / 2 ^ j) := by
    refine lowByte_shift s fun i small => ?_
    rw [sar, given, Nat.mod_eq_of_lt (by omega), BitVec.getLsbD_sshiftRight,
      BitVec.getLsbD_signExtend]
    simp only [show ¬ 32 ≤ i by omega, show j + i < 32 by omega, show j + i < 24 by omega,
      decide_true, decide_false, if_true, Bool.true_and, Bool.not_false]
  have low := lowByte_shift (x := s.signExtend 32) (j := 0) s fun i small => by
    rw [BitVec.getLsbD_signExtend]
    simp only [show i < 32 by omega, show i < 24 by omega, decide_true, if_true, Bool.true_and,
      Nat.zero_add]
  rw [le24, low, byte (by decide : 8 + 8 ≤ 24) 8 rfl, byte (by decide : 16 + 8 ≤ 24) 16 rfl,
    Nat.pow_zero, Nat.div_one]
  show _ = [UInt8.ofNat s.toNat, UInt8.ofNat (s.toNat / 256), UInt8.ofNat (s.toNat / 256 / 256)]
  rw [Nat.div_div_eq_div_mul]
  rfl

end Bytes

/-- A frame with the element type of the decoder and a header that passes all checks has a
plan for its samples. -/
theorem plan_opened {dec : AlacDecoder} {buf : List UInt8} {hdr : SubframeHeader} {r : BitReader}
    {room : Nat} (ready : Ready dec) (element : Holds buf 0 (field 3 (dec.numChannels.toNat - 1)))
    (parsed : dec.header (.seek buf 3) = (hdr, r)) (opened : Opened dec hdr room)
    (whole : hdr.uncompressedBytes * 8 ≤ dec.sampleSize)
    (enough : dec.maxSamplesPerFrame.toNat * dec.bytesPerSample.toNat ≤ room) :
    (dec.numChannels = 1 → dec.plan buf room = .mono hdr r) ∧
      (dec.numChannels = 2 → dec.plan buf room = .stereo hdr r) := by
  have bytes : ¬ dec.bytesPerSample.toInt ≤ 0 := by
    rw [ready.bytes, AlacDecoder.sampleSize]
    rcases ready.sampleSize with h | h <;> rcases ready.channels with h' | h' <;>
      (rw [h, h']; decide)
  have small : dec.numChannels.toNat - 1 < 2 ^ 3 := by
    rcases ready.channels with h | h <;> (rw [h]; decide)
  have type : (seek buf 0).readbits 3 =
      (BitVec.ofNat 32 (dec.numChannels.toNat - 1), .seek buf 3) :=
    readbits_field 3 element (by decide) small
  have passed : hdr.verdict dec room = .decodes := by
    have inside := opened.inside
    have fits := opened.room
    have nonzero := opened.samples
    rw [SubframeHeader.verdict, if_neg (by omega), if_neg (by omega),
      if_neg (BitVec.not_lt.mpr whole)]
  have plans : dec.plan buf room =
      dec.elementPlan (BitVec.ofNat 32 (dec.numChannels.toNat - 1)) (.seek buf 3) room := by
    rw [AlacDecoder.plan, BitReader.new_eq_seek, type,
      if_neg (not_or.mpr ⟨ready.frames, bytes⟩), if_neg (by omega)]
  rw [plans, AlacDecoder.elementPlan, parsed]
  dsimp only
  rw [passed]
  constructor
  · intro one
    have mono : BitVec.ofNat 32 (dec.numChannels.toNat - 1) = (0 : Word) := by rw [one]; rfl
    rw [if_pos mono, if_neg (not_not.mpr one)]
    rfl
  · intro two
    have stereo : BitVec.ofNat 32 (dec.numChannels.toNat - 1) = (1 : Word) := by rw [two]; rfl
    rw [stereo, if_neg (by decide), if_pos rfl, if_neg (not_not.mpr two)]
    rfl

namespace Block

variable {w : Nat} {block : Block w} {dec : AlacDecoder} {buf : List UInt8}
  {payload : List Bool}

/-- Where the parts of a frame stand. -/
structure Framed (block : Block w) (buf : List UInt8) (payload : List Bool) : Prop where
  element : Holds buf 0 (field 3 (block.channels - 1))
  header : Holds buf 3 (field 4 0 ++ (field 12 0 ++ (field 1 1 ++ (field 2 0 ++ (field 1 0 ++
    field 32 block.count)))))
  interlacing : Holds buf 55 (field 8 0 ++ field 8 0)
  codings : Holds buf 71 (block.codings.flatMap ChannelCoding.headerBits)
  payload : Holds buf (71 + (block.codings.flatMap ChannelCoding.headerBits).length) payload

theorem framed_pack (block : Block w) (payload : List Bool) :
    block.Framed (pack (block.headerBits ++ payload)) payload := by
  have held := holds_pack (block.headerBits ++ payload)
  simp only [headerBits, List.append_assoc, holds_append, length_field] at held
  obtain ⟨element, a, b, c, d, e, f, shift, leftweight, codings, payload⟩ := held
  refine ⟨element, ?_, holds_append.mpr ⟨shift, leftweight⟩, codings, payload⟩
  simp only [holds_append, length_field]
  exact ⟨a, b, c, d, e, f⟩

def planned (block : Block w) (bytesPerSample : Nat) (r : BitReader) : Plan :=
  match block with
  | .mono _ _ => .mono (block.subframeHeader bytesPerSample) r
  | .stereo _ _ _ => .stereo (block.subframeHeader bytesPerSample) r

/-- The headers of a block that fits the decoder pass all checks. -/
theorem plan_framed (framed : block.Framed buf payload) (ready : Ready dec)
    (channels : dec.numChannels.toNat = block.channels) (nonempty : 0 < block.count)
    (inside : block.count ≤ dec.maxSamplesPerFrame.toNat) {room : Nat}
    (enough : dec.maxSamplesPerFrame.toNat * dec.bytesPerSample.toNat ≤ room) :
    dec.plan buf room = block.planned dec.bytesPerSample.toNat (.seek buf 55) := by
  have header : Holds buf 3 (elementHeader 0 true false block.count) := framed.header
  have parsed : dec.header (.seek buf 3) =
      (block.subframeHeader dec.bytesPerSample.toNat, .seek buf 55) :=
    parseSubframeHeader_seek (Nat.lt_of_le_of_lt inside dec.maxSamplesPerFrame.isLt)
      (fun unsized => by cases unsized) header
  have opened : Opened dec (block.subframeHeader dec.bytesPerSample.toNat) room :=
    ⟨nonempty, inside, rfl, (Nat.mul_le_mul_right _ inside).trans enough⟩
  have element : Holds buf 0 (field 3 (dec.numChannels.toNat - 1)) := by
    rw [channels]
    exact framed.element
  have plans := plan_opened ready element parsed opened (BitVec.le_def.mpr (Nat.zero_le _)) enough
  cases block with
  | mono coding samples => exact plans.1 (BitVec.eq_of_toNat_eq channels)
  | stereo codingA codingB samples => exact plans.2 (BitVec.eq_of_toNat_eq channels)

theorem sampleSize_eq (size : dec.sampleSizeConfig.toNat = w) :
    dec.sampleSize = BitVec.ofNat 32 w := by
  rw [← size, AlacDecoder.sampleSize]
  simp

theorem depth_of_ready (ready : Ready dec) (size : dec.sampleSizeConfig.toNat = w) :
    w = 16 ∨ w = 24 := by
  rcases ready.sampleSize with h | h
  · exact .inl (by rw [← size, h]; rfl)
  · exact .inr (by rw [← size, h]; rfl)

theorem length_pcm (block : Block w) :
    block.pcm.length = block.count * (w / 8 * block.channels) := by
  cases block with
  | mono coding samples =>
    have single (s : BitVec w) : (sampleBytes s).length = w / 8 := Bytes.length_leBytes _ _
    rw [pcm, length_flatMap_const single, channels, Nat.mul_one]
    rfl
  | stereo codingA codingB samples =>
    have pair (s : BitVec w × BitVec w) :
        (sampleBytes s.1 ++ sampleBytes s.2).length = w / 8 * 2 := by
      rw [List.length_append, sampleBytes, sampleBytes, Bytes.length_leBytes, Bytes.length_leBytes]
      omega
    rw [pcm, length_flatMap_const pair]
    rfl

end Block

section Outcome

variable {w : Nat} {dec : AlacDecoder} {buf output : List UInt8}

theorem monoContent_framed {coding : ChannelCoding} {samples : List (BitVec w)}
    (framed : (Block.mono coding samples).Framed buf ((Block.mono coding samples).payload dec))
    (ready : Ready dec) (size : dec.sampleSizeConfig.toNat = w) (short : samples.length ≤ 65536)
    (bytesPerSample : Nat) :
    (monoContent dec ((Block.mono coding samples).subframeHeader bytesPerSample)
        (.seek buf 55)).a = samples.map (BitVec.signExtend 32) ∧
      monoOrders ((Block.mono coding samples).subframeHeader bytesPerSample) (.seek buf 55) =
        [coding.order] := by
  have depth := Block.depth_of_ready ready size
  have codings := framed.codings
  have payload := framed.payload
  rw [Block.codings, List.flatMap_singleton] at codings payload
  have predictor : monoPredictor (.seek buf 55) =
      (coding.header, .seek buf (71 + coding.headerBits.length)) := by
    rw [monoPredictor, (skipInterlacing_seek framed.interlacing).1]
    exact predictorHeader_seek coding codings
  have plain : monoSize dec ((Block.mono coding samples).subframeHeader bytesPerSample) =
      BitVec.ofNat 32 w := by
    rw [monoSize, Block.sampleSize_eq size]
    exact BitVec.sub_zero _
  have narrow : ∀ x ∈ samples.map (BitVec.signExtend 32), Narrow w x := by
    intro x mem
    obtain ⟨s, -, rfl⟩ := List.mem_map.mp mem
    exact ⟨s, rfl⟩
  have decoded := channelSamples_code coding (by omega) (by omega) narrow
    (by rw [List.length_map]; exact short) payload
  rw [List.length_map] at decoded
  have compressed : ((Block.mono coding samples).subframeHeader bytesPerSample).isNotCompressed =
      0 := rfl
  constructor
  · rw [monoContent, if_pos compressed, predictor, plain]
    exact congrArg Prod.fst decoded
  · rw [monoOrders, if_pos compressed, predictor]
    rfl

theorem stereoContent_framed {codingA codingB : ChannelCoding}
    {samples : List (BitVec w × BitVec w)}
    (framed : (Block.stereo codingA codingB samples).Framed buf
      ((Block.stereo codingA codingB samples).payload dec))
    (ready : Ready dec) (size : dec.sampleSizeConfig.toNat = w) (short : samples.length ≤ 65536)
    (bytesPerSample : Nat) :
    unmixed (stereoContent dec ((Block.stereo codingA codingB samples).subframeHeader
        bytesPerSample) (.seek buf 55)) =
        samples.map (fun s => (s.1.signExtend 32, s.2.signExtend 32)) ∧
      stereoOrders ((Block.stereo codingA codingB samples).subframeHeader bytesPerSample)
        (.seek buf 55) = [codingA.order, codingB.order] := by
  have depth := Block.depth_of_ready ready size
  have codings := framed.codings
  have payload := framed.payload
  rw [Block.codings, List.flatMap_cons, List.flatMap_singleton] at codings payload
  rw [List.length_append, ← Nat.add_assoc] at payload
  obtain ⟨headA, headB⟩ := holds_append.mp codings
  obtain ⟨codeA, codeB⟩ := holds_append.mp payload
  obtain ⟨skipped, leftweight⟩ := skipInterlacing_seek framed.interlacing
  have predictors : stereoPredictors (.seek buf 55) = ((codingA.header, codingB.header),
      .seek buf (71 + codingA.headerBits.length + codingB.headerBits.length)) := by
    rw [stereoPredictors, skipped, predictorHeader_seek codingA headA]
    dsimp only
    rw [predictorHeader_seek codingB headB]
  have plain : stereoSize dec ((Block.stereo codingA codingB samples).subframeHeader
      bytesPerSample) = BitVec.ofNat 32 (w + 1) := by
    rw [stereoSize, Block.sampleSize_eq size, BitVec.ofNat_add]
    exact congrArg (· + 1) (BitVec.sub_zero _)
  have narrow (part : BitVec w × BitVec w → BitVec w) :
      ∀ x ∈ samples.map (fun s => (part s).signExtend 32), Narrow (w + 1) x := by
    intro x mem
    obtain ⟨s, -, rfl⟩ := List.mem_map.mp mem
    exact narrow_of_le (part s) (by omega)
  have decodedA := channelSamples_code codingA (by omega) (by omega) (narrow Prod.fst)
    (by rw [List.length_map]; exact short) codeA
  have decodedB := channelSamples_code codingB (by omega) (by omega) (narrow Prod.snd)
    (by rw [List.length_map]; exact short) codeB
  rw [List.length_map] at decodedA decodedB
  have compressed : ((Block.stereo codingA codingB samples).subframeHeader
      bytesPerSample).isNotCompressed = 0 := rfl
  constructor
  · rw [stereoContent, if_pos compressed, predictors, plain, leftweight]
    show List.zipWith (unmix _ 0) (channelSamples dec samples.length _ codingA.header _).1
      (channelSamples dec samples.length _ codingB.header
        (channelSamples dec samples.length _ codingA.header _).2).1 = _
    rw [show stereoLow _ _ = ([], _) from rfl]
    dsimp only
    rw [decodedA]
    dsimp only
    rw [decodedB]
    rw [List.zipWith_map, List.zipWith_self]
    rfl
  · rw [stereoOrders, if_pos compressed, predictors]
    rfl

variable (ready : Ready dec) (size : dec.sampleSizeConfig.toNat = w)
include ready size

/-- The little-endian bytes that the decoder writes for a sample of its depth. -/
theorem sampleBytes_eq (s : BitVec w) :
    Block.sampleBytes s =
      (if dec.sampleSizeConfig = 16 then le16 else le24) (s.signExtend 32) := by
  rcases ready.sampleSize with h | h
  · obtain rfl : w = 16 := by rw [← size, h]; rfl
    rw [if_pos h, le16_signExtend]
  · obtain rfl : w = 24 := by rw [← size, h]; rfl
    rw [h, if_neg (by decide), le24_signExtend]

theorem monoBytes_plain {hdr : SubframeHeader} (plain : hdr.uncompressedBytes = 0) {c : Content}
    {samples : List (BitVec w)} (content : c.a = samples.map (BitVec.signExtend 32)) :
    monoBytes dec hdr c = samples.flatMap Block.sampleBytes := by
  have whole : monoSamples24 hdr c = c.a := by
    rw [monoSamples24, plain, if_neg fun extra => absurd extra.1 (by decide)]
  have bytes : monoBytes dec hdr c =
      c.a.flatMap (if dec.sampleSizeConfig = 16 then le16 else le24) := by
    rw [monoBytes, whole]
    split <;> rfl
  rw [bytes, content, List.flatMap_map]
  exact congrArg samples.flatMap (funext fun s => (sampleBytes_eq ready size s).symm)

theorem stereoBytes_plain {hdr : SubframeHeader} (plain : hdr.uncompressedBytes = 0) {c : Content}
    {samples : List (BitVec w × BitVec w)}
    (content : unmixed c = samples.map fun s => (s.1.signExtend 32, s.2.signExtend 32)) :
    stereoBytes dec hdr c =
      samples.flatMap fun s => Block.sampleBytes s.1 ++ Block.sampleBytes s.2 := by
  have whole : stereoSamples24 hdr c = unmixed c := by
    rw [stereoSamples24, plain, if_neg (by decide)]
  have bytes : stereoBytes dec hdr c =
      (unmixed c).flatMap (pairBytes (if dec.sampleSizeConfig = 16 then le16 else le24)) := by
    rw [stereoBytes, whole]
    split <;> rfl
  rw [bytes, content, List.flatMap_map]
  refine congrArg samples.flatMap (funext fun s => ?_)
  rw [pairBytes, sampleBytes_eq ready size, sampleBytes_eq ready size]

theorem bytesPerSample_eq :
    dec.bytesPerSample.toNat = w / 8 * dec.numChannels.toNat := by
  rcases ready.sampleSize with h | h
  · obtain rfl : w = 16 := by rw [← size, h]; rfl
    exact bytesPerSample_16 ready h
  · obtain rfl : w = 24 := by rw [← size, h]; rfl
    exact bytesPerSample_24 ready h

theorem decodeFrame_block {block : Block w} (channels : dec.numChannels.toNat = block.channels)
    (nonempty : 0 < block.count) (inside : block.count ≤ dec.maxSamplesPerFrame.toNat)
    (short : block.count ≤ 65536)
    (fits : ∀ coding ∈ block.codings, OrderFits coding.order block.count)
    (room : dec.maxSamplesPerFrame.toNat * dec.bytesPerSample.toNat ≤ output.length) :
    (dec.decodeFrame (pack (block.headerBits ++ block.payload dec)) output).2 =
      (overwrite block.pcm output, some block.pcm.length) := by
  have framed := block.framed_pack (block.payload dec)
  have opened : Opened dec (block.subframeHeader dec.bytesPerSample.toNat) output.length :=
    ⟨nonempty, inside, rfl, (Nat.mul_le_mul_right _ inside).trans room⟩
  have all : OrdersFit (block.codings.map ChannelCoding.order) block.count := by
    intro m mem
    obtain ⟨coding, member, rfl⟩ := List.mem_map.mp mem
    exact fits coding member
  rw [decodeFrame_plan, Block.plan_framed framed ready channels nonempty inside room,
    block.length_pcm, ← channels, ← bytesPerSample_eq ready size]
  cases block with
  | mono coding samples =>
    obtain ⟨content, orders⟩ :=
      monoContent_framed framed ready size short dec.bytesPerSample.toNat
    rw [Block.planned, mono_outcome ready (BitVec.eq_of_toNat_eq channels) opened
      (by rw [orders]; exact all), monoBytes_plain ready size rfl content]
    rfl
  | stereo codingA codingB samples =>
    obtain ⟨content, orders⟩ :=
      stereoContent_framed framed ready size short dec.bytesPerSample.toNat
    rw [Block.planned, stereo_outcome ready (BitVec.eq_of_toNat_eq channels) opened
      (by rw [orders]; exact all), stereoBytes_plain ready size rfl content]
    rfl

end Outcome

/-- A configuration of a supported depth and number of channels. -/
structure Supports (config : List UInt8) (w channels : Nat) : Prop where
  length : 48 ≤ config.length
  size : (config.getD 29 0).toNat = w
  depth : w = 16 ∨ w = 24
  number : (config.getD 33 0).toNat = channels
  channels : channels = 1 ∨ channels = 2

def frameLength (config : List UInt8) : Nat := (beWord config 24).toNat

/-- What `set_info` makes of a supported configuration. -/
theorem setInfo_supported {config : List UInt8} {w channels : Nat}
    (supported : Supports config w channels) (frames : 0 < frameLength config) (dec : AlacDecoder) :
    Ready (dec.setInfo config) ∧ (dec.setInfo config).sampleSizeConfig.toNat = w ∧
      (dec.setInfo config).numChannels.toNat = channels ∧
      (dec.setInfo config).maxSamplesPerFrame.toNat = frameLength config := by
  have size : (dec.readConfig config).sampleSizeConfig = 16 ∨
      (dec.readConfig config).sampleSizeConfig = 24 := by
    rcases supported.depth with h | h
    · exact .inl (BitVec.eq_of_toNat_eq (supported.size.trans h))
    · exact .inr (BitVec.eq_of_toNat_eq (supported.size.trans h))
  have number : (config.getD 33 0).toBitVec = 1 ∨ (config.getD 33 0).toBitVec = 2 := by
    rcases supported.channels with h | h
    · exact .inl (BitVec.eq_of_toNat_eq (supported.number.trans h))
    · exact .inr (BitVec.eq_of_toNat_eq (supported.number.trans h))
  have wide : ((config.getD 33 0).toBitVec.setWidth 32 : Word).toNat = channels := by
    rw [BitVec.toNat_setWidth, ← supported.number]
    exact Nat.mod_eq_of_lt (Nat.lt_trans (UInt8.toNat_lt _) (by decide))
  have profile : ¬ (((dec.readConfig config).sampleSizeConfig ≠ 16 ∧
      (dec.readConfig config).sampleSizeConfig ≠ 24) ∨
      ¬ (1 ≤ (config.getD 33 0).toBitVec ∧ (config.getD 33 0).toBitVec ≤ 2)) := by
    rintro (h | h)
    · rcases size with s | s
      · exact h.1 s
      · exact h.2 s
    · rcases number with n | n <;> (rw [n] at h; exact h (by decide))
  have configured : dec.setInfo config =
      ((dec.readConfig config).setChannels ((config.getD 33 0).toBitVec.setWidth 32)).enable := by
    rw [AlacDecoder.setInfo, if_neg (Nat.not_lt.mpr supported.length), AlacDecoder.configure,
      if_neg profile]
  have kept (d : AlacDecoder) : d.enable.sampleSizeConfig = d.sampleSizeConfig ∧
      d.enable.numChannels = d.numChannels ∧
      d.enable.maxSamplesPerFrame = d.maxSamplesPerFrame := by
    rw [AlacDecoder.enable]
    split <;> exact ⟨rfl, rfl, rfl⟩
  obtain ⟨sampleSize, numChannels, maxSamples⟩ :=
    kept ((dec.readConfig config).setChannels ((config.getD 33 0).toBitVec.setWidth 32))
  have fresh : (dec.setInfo config).maxSamplesPerFrame = beWord config 24 := by
    rw [configured, maxSamples]
    rfl
  refine ⟨?_, ?_, ?_, congrArg BitVec.toNat fresh⟩
  · have ready := AlacDecoder.ready_configure (dec.readConfig config) (config.getD 33 0).toBitVec
    rw [AlacDecoder.configure, if_neg profile, ← configured] at ready
    refine ready.resolve_right fun none => ?_
    rw [frameLength, ← fresh, none] at frames
    exact absurd frames (by decide)
  · rw [configured, sampleSize]
    exact supported.size
  · rw [configured, numChannels]
    exact wide

theorem sampleSizeConfig_congr {dec dec' : AlacDecoder} (same : dec'.blank = dec.blank) :
    dec'.sampleSizeConfig = dec.sampleSizeConfig := by
  have field := congrArg AlacDecoder.sampleSizeConfig same
  exact field

/-- The code of a block depends on the settings of the decoder only. -/
theorem payload_congr {w : Nat} (block : Block w) {dec dec' : AlacDecoder}
    (same : dec'.blank = dec.blank) : block.payload dec' = block.payload dec := by
  have codes := congrArg (fun d : AlacDecoder => block.payload d) same
  exact codes

/-- Compressed frames are lossless: for every supported configuration with a frame length
of at most 65535, whatever its Rice parameters are, and for every block of at least one and
at most a frame of samples, coded with predictors whose orders fit, there is a compressed
frame that `decode_frame` decodes to exactly the block, on every decoder with that
configuration and in every output with room for a full frame. -/
theorem compressed_lossless {w : Nat} (block : Block w) (config : List UInt8)
    (supported : Supports config w block.channels) (length : frameLength config ≤ 65535)
    (nonempty : 0 < block.count) (inside : block.count ≤ frameLength config)
    (fits : ∀ coding ∈ block.codings, OrderFits coding.order block.count)
    (sampleSize numChannels : Word) :
    ∃ payload, ∀ (history : List (List UInt8 × List UInt8)) (output : List UInt8),
      frameLength config * (w / 8 * block.channels) ≤ output.length →
      let dec := ((AlacDecoder.new sampleSize numChannels).setInfo config).after history
      (dec.decodeFrame (pack (block.headerBits ++ payload)) output).2 =
        (overwrite block.pcm output, some block.pcm.length) := by
  obtain ⟨ready, size, channels, frames⟩ := setInfo_supported supported
    (Nat.lt_of_lt_of_le nonempty inside) (AlacDecoder.new sampleSize numChannels)
  refine ⟨block.payload ((AlacDecoder.new sampleSize numChannels).setInfo config),
    fun history output room => ?_⟩
  intro dec
  have same : dec.blank = ((AlacDecoder.new sampleSize numChannels).setInfo config).blank :=
    AlacDecoder.blank_after _ history
  have size' : dec.sampleSizeConfig.toNat = w := by
    rw [sampleSizeConfig_congr same]
    exact size
  have count := AlacDecoder.maxSamplesPerFrame_congr same
  have number := numChannels_congr same
  have ready' := ready.congr same
  rw [← payload_congr block same]
  refine decodeFrame_block ready' size' (by rw [number]; exact channels) nonempty
    (by rw [count, frames]; exact inside) (by omega) fits ?_
  rw [bytesPerSample_eq ready' size', number, channels, count, frames]
  exact room

/-- A configuration of 24-bit stereo frames of four samples. -/
def quartetConfig : List UInt8 :=
  List.replicate 27 0 ++ [4, 0, 24, 40, 10, 14, 2] ++ List.replicate 14 0

/-- A left channel with a predictor of order 2 and a right channel of plain differences. -/
def quartet : Block 24 :=
  .stereo ⟨9, 4, [1280, 64], by decide⟩ ⟨0, 6, List.replicate 31 0, by decide⟩
    [(8388607, 0), (8388608, 0), (1000, 0), (0, 5)]

theorem quartet_lossless :
    ∃ payload, ∀ (history : List (List UInt8 × List UInt8)) (output : List UInt8),
      frameLength quartetConfig * (24 / 8 * quartet.channels) ≤ output.length →
      let dec := ((AlacDecoder.new 24 2).setInfo quartetConfig).after history
      (dec.decodeFrame (pack (quartet.headerBits ++ payload)) output).2 =
        (overwrite quartet.pcm output, some quartet.pcm.length) :=
  compressed_lossless quartet quartetConfig
    ⟨by decide, by decide, .inr rfl, by decide, .inr rfl⟩ (by decide) (by decide) (by decide)
    (by decide) 24 2

end Shairplay.Codec
