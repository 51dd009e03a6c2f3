import Shairplay.Codec.Alac.Safety

/-!
# What a frame shows of the frames before it

The scratch buffers are reused, but almost nothing of their old content reaches the
output. Samples and prediction errors are overwritten before they are read. The
uncompressed low bytes are not: a verbatim stereo frame of 24 bits that announces
uncompressed bytes reads no such bytes, and `deinterlace_24` still puts the low bytes of
an earlier frame below its samples. The mono path checks for this case.
-/

namespace Shairplay.Codec

open Lib Lib.Attempt
open AlacDecoder (Ready)

theorem getLsbD_sar {v k : Word} {n j : Nat} (amount : k.toNat = n) (inside : n + j < 32) :
    (sar v k).getLsbD j = v.getLsbD (n + j) := by
  have shift : k.toNat % 32 = n := by omega
  have below : ¬ 32 ≤ j := by omega
  rw [sar, shift, BitVec.getLsbD_sshiftRight, if_pos inside]
  simp [below]

theorem lowByte_eq_iff {v w : Word} :
    lowByte v = lowByte w ↔ ∀ j < 8, v.getLsbD j = w.getLsbD j := by
  rw [lowByte, lowByte, UInt8.ofBitVec.injEq]
  constructor
  · intro same j inside
    have bit := congrArg (BitVec.getLsbD · j) same
    simpa only [BitVec.getLsbD_setWidth, inside, decide_true, Bool.true_and] using bit
  · intro same
    apply BitVec.eq_of_getLsbD_eq
    intro j inside
    rw [BitVec.getLsbD_setWidth, BitVec.getLsbD_setWidth, same j inside]

theorem le24_eq_iff {v w : Word} : le24 v = le24 w ↔ ∀ j < 24, v.getLsbD j = w.getLsbD j := by
  simp only [le24, List.cons.injEq, and_true, lowByte_eq_iff]
  have second (x : Word) (j : Nat) (h : j < 8) : (sar x 8).getLsbD j = x.getLsbD (8 + j) :=
    getLsbD_sar rfl (by omega)
  have third (x : Word) (j : Nat) (h : j < 8) : (sar x 16).getLsbD j = x.getLsbD (16 + j) :=
    getLsbD_sar rfl (by omega)
  constructor
  · rintro ⟨a, b, c⟩ j inside
    rcases (show j < 8 ∨ (8 ≤ j ∧ j < 16) ∨ (16 ≤ j ∧ j < 24) by omega) with h | h | h
    · exact a j h
    · have bit := b (j - 8) (by omega)
      rwa [second _ _ (by omega), second _ _ (by omega), show 8 + (j - 8) = j by omega] at bit
    · have bit := c (j - 16) (by omega)
      rwa [third _ _ (by omega), third _ _ (by omega), show 16 + (j - 16) = j by omega] at bit
  · intro all
    refine ⟨fun j h => all _ (by omega), fun j h => ?_, fun j h => ?_⟩
    · rw [second _ _ h, second _ _ h, all _ (by omega)]
    · rw [third _ _ h, third _ _ h, all _ (by omega)]

section LowBytes

variable {ub : Word} (range : 0 < ub.toNat ∧ ub.toNat < 4)
include range

theorem lowBits_amount : (ub * 8).toNat % 32 = ub.toNat * 8 := by
  rw [BitVec.toNat_mul]
  show ub.toNat * 8 % 4294967296 % 32 = _
  omega

theorem getLsbD_lowMask (j : Nat) : (lowMask ub).getLsbD j = decide (j < ub.toNat * 8) := by
  have ones : (0xFFFFFFFF : Word) = BitVec.allOnes 32 := by decide
  rw [lowMask, shl, lowBits_amount range, ones, BitVec.getLsbD_not, BitVec.getLsbD_shiftLeft,
    BitVec.getLsbD_allOnes]
  by_cases h : j < ub.toNat * 8
  · simp [h, show j < 32 by omega]
  · by_cases h' : j < 32
    · simp [h, h', show j - ub.toNat * 8 < 32 by omega]
    · simp [h, h']

/-- Low bytes show in the output exactly if they are not zero. -/
theorem le24_withLowBytes {x low : Word} :
    le24 (withLowBytes ub x low) = le24 (withLowBytes ub x 0) ↔ low &&& lowMask ub = 0 := by
  have bits (y : Word) (j : Nat) (h : j < ub.toNat * 8) :
      (withLowBytes ub x y).getLsbD j = y.getLsbD j := by
    rw [withLowBytes, shl, lowBits_amount range, BitVec.getLsbD_or, BitVec.getLsbD_shiftLeft,
      BitVec.getLsbD_and, getLsbD_lowMask range]
    simp [h]
  rw [le24_eq_iff]
  constructor
  · intro same
    apply BitVec.eq_of_getLsbD_eq
    intro j inside
    rw [BitVec.getLsbD_and, getLsbD_lowMask range]
    by_cases h : j < ub.toNat * 8
    · have bit := same j (by omega)
      rw [bits _ _ h, bits _ _ h] at bit
      rw [bit, decide_eq_true h, Bool.and_true]
    · simp [h]
  · intro none j _
    have zero : (0 : Word) &&& lowMask ub = 0 := BitVec.zero_and
    rw [withLowBytes, withLowBytes, none, zero]

end LowBytes

/-- Chunks of equal length are compared one by one. -/
theorem append_eq_append_iff_of_length {α : Type} {a b c d : List α} (same : a.length = c.length) :
    a ++ b = c ++ d ↔ a = c ∧ b = d := by
  constructor
  · intro h
    exact List.append_inj h same
  · rintro ⟨rfl, rfl⟩
    rfl

/-- Low bytes show in the bytes of a whole channel pair exactly if one is not zero. -/
theorem flatMap_withLowPair {ub : Word} (range : 0 < ub.toNat ∧ ub.toNat < 4)
    (mixed : List (Word × Word)) (lowA lowB : List Word) (lengthA : lowA.length = mixed.length)
    (lengthB : lowB.length = mixed.length) :
    (List.zipWith (withLowPair ub) mixed (List.zip lowA lowB)).flatMap (pairBytes le24) =
        (List.zipWith (withLowPair ub) mixed (List.zip (List.replicate mixed.length 0)
          (List.replicate mixed.length 0))).flatMap (pairBytes le24) ↔
      ∀ x ∈ lowA ++ lowB, x &&& lowMask ub = 0 := by
  induction mixed generalizing lowA lowB with
  | nil =>
    rw [List.length_nil, List.length_eq_zero_iff] at lengthA lengthB
    subst lengthA lengthB
    simp
  | cons m mixed ih =>
    obtain ⟨a, lowA, rfl⟩ := List.exists_cons_of_length_eq_add_one lengthA
    obtain ⟨b, lowB, rfl⟩ := List.exists_cons_of_length_eq_add_one lengthB
    have rest := ih lowA lowB (by simpa using lengthA) (by simpa using lengthB)
    have pair : pairBytes le24 (withLowPair ub m (a, b)) =
        pairBytes le24 (withLowPair ub m (0, 0)) ↔ a &&& lowMask ub = 0 ∧ b &&& lowMask ub = 0 := by
      rw [pairBytes, pairBytes, append_eq_append_iff_of_length (by simp)]
      exact and_congr (le24_withLowBytes range) (le24_withLowBytes range)
    simp only [List.length_cons, List.replicate_succ, List.zip_cons_cons, List.zipWith_cons_cons,
      List.flatMap_cons]
    rw [append_eq_append_iff_of_length (by rw [length_pairBytes_le24, length_pairBytes_le24]),
      pair, rest]
    constructor
    · rintro ⟨⟨hereA, hereB⟩, others⟩ x mem
      rcases List.mem_append.mp mem with mem | mem
      · rcases List.mem_cons.mp mem with rfl | mem
        · exact hereA
        · exact others x (List.mem_append_left _ mem)
      · rcases List.mem_cons.mp mem with rfl | mem
        · exact hereB
        · exact others x (List.mem_append_right _ mem)
    · intro all
      refine ⟨⟨all a (by simp), all b (by simp)⟩, fun x mem => all x ?_⟩
      rcases List.mem_append.mp mem with mem | mem
      · simp [mem]
      · simp [mem]

/-- A verbatim stereo frame of 24 bits announces uncompressed bytes, and the buffers of low
bytes are not zero where it has samples. -/
def AlacDecoder.ShowsStale (dec : AlacDecoder) : Plan → Prop
  | .nothing => False
  | .mono _ _ => False
  | .stereo hdr _ =>
    dec.sampleSizeConfig = 24 ∧ hdr.isNotCompressed ≠ 0 ∧ 0 < hdr.uncompressedBytes ∧
      ∃ x ∈ dec.uncompressedBytesBufferA.take hdr.outputSamples ++
          dec.uncompressedBytesBufferB.take hdr.outputSamples,
        x &&& lowMask hdr.uncompressedBytes ≠ 0

variable {dec : AlacDecoder} {hdr : SubframeHeader} {r : BitReader} {input output : List UInt8}

/-- The content of a compressed stereo frame depends on the settings only. -/
theorem stereoContent_blank (compressed : hdr.isNotCompressed = 0) (r : BitReader) :
    stereoContent dec.blank hdr r = stereoContent dec hdr r := by
  rw [stereoContent, stereoContent, if_pos compressed, if_pos compressed]
  rfl

/-- The low bytes of a blank decoder are zero. -/
theorem take_blank (ready : Ready dec) (hdr : SubframeHeader)
    (inside : hdr.outputSamples ≤ dec.maxSamplesPerFrame.toNat) :
    dec.blank.uncompressedBytesBufferA.take hdr.outputSamples =
        List.replicate hdr.outputSamples 0 ∧
      dec.blank.uncompressedBytesBufferB.take hdr.outputSamples =
        List.replicate hdr.outputSamples 0 := by
  simp only [AlacDecoder.blank, List.take_replicate, ready.uncompressedA, ready.uncompressedB,
    Nat.min_eq_left inside, and_self]

/-- Overwriting the front of one output with two sequences of one length. -/
theorem overwrite_eq_iff {α : Type} {xs ys buffer : List α} (same : xs.length = ys.length) :
    overwrite xs buffer = overwrite ys buffer ↔ xs = ys := by
  rw [overwrite, overwrite, append_eq_append_iff_of_length same]
  constructor
  · exact And.left
  · rintro rfl
    exact ⟨rfl, rfl⟩

theorem length_stereoBytes_24 (ready : Ready dec) (size : dec.sampleSizeConfig = 24)
    (inside : hdr.outputSamples ≤ dec.maxSamplesPerFrame.toNat) :
    (stereoBytes dec hdr (stereoContent dec hdr r)).length = hdr.outputSamples * 6 := by
  have other : dec.sampleSizeConfig ≠ 16 := by rw [size]; decide
  rw [stereoBytes, if_neg other, length_flatMap_const length_pairBytes_le24,
    length_stereoSamples24 ready inside]

/-- A verbatim stereo frame of 24 bits with uncompressed bytes gives the bytes of a blank
decoder exactly if the low bytes it finds are zero. -/
theorem verbatim_bytes_iff (ready : Ready dec) (size : dec.sampleSizeConfig = 24)
    (verbatim : hdr.isNotCompressed ≠ 0) (extra : 0 < hdr.uncompressedBytes)
    (range : hdr.uncompressedBytes.toNat < 4)
    (inside : hdr.outputSamples ≤ dec.maxSamplesPerFrame.toNat) :
    stereoBytes dec hdr (stereoContent dec hdr r) =
        stereoBytes dec.blank hdr (stereoContent dec.blank hdr r) ↔
      ∀ x ∈ dec.uncompressedBytesBufferA.take hdr.outputSamples ++
          dec.uncompressedBytesBufferB.take hdr.outputSamples,
        x &&& lowMask hdr.uncompressedBytes = 0 := by
  have other : dec.sampleSizeConfig ≠ 16 := by rw [size]; decide
  have other' : dec.blank.sampleSizeConfig ≠ 16 := other
  have positive : 0 < hdr.uncompressedBytes.toNat := extra
  obtain ⟨zeroA, zeroB⟩ := take_blank ready hdr inside
  have mixed : unmixed (stereoContent dec.blank hdr r) = unmixed (stereoContent dec hdr r) := by
    rw [stereoContent, stereoContent, if_neg verbatim, if_neg verbatim]
    rfl
  have count := length_unmixed dec hdr r
  have lows : (stereoContent dec hdr r).lowA =
        dec.uncompressedBytesBufferA.take hdr.outputSamples ∧
      (stereoContent dec hdr r).lowB = dec.uncompressedBytesBufferB.take hdr.outputSamples := by
    rw [stereoContent, if_neg verbatim]
    exact ⟨rfl, rfl⟩
  have lows' : (stereoContent dec.blank hdr r).lowA = List.replicate hdr.outputSamples 0 ∧
      (stereoContent dec.blank hdr r).lowB = List.replicate hdr.outputSamples 0 := by
    rw [stereoContent, if_neg verbatim]
    exact ⟨zeroA, zeroB⟩
  rw [stereoBytes, stereoBytes, if_neg other, if_neg other', stereoSamples24, stereoSamples24,
    if_pos extra, if_pos extra, mixed, lows.1, lows.2, lows'.1, lows'.2, ← count]
  apply flatMap_withLowPair ⟨positive, range⟩
  · rw [count, List.length_take_of_le (by rw [ready.uncompressedA]; exact inside)]
  · rw [count, List.length_take_of_le (by rw [ready.uncompressedB]; exact inside)]

/-- In every other case the stereo bytes are those of a blank decoder. -/
theorem stereoBytes_blank
    (other : ¬ (dec.sampleSizeConfig = 24 ∧ hdr.isNotCompressed ≠ 0 ∧ 0 < hdr.uncompressedBytes))
    (ready : Ready dec) :
    stereoBytes dec.blank hdr (stereoContent dec.blank hdr r) =
      stereoBytes dec hdr (stereoContent dec hdr r) := by
  by_cases compressed : hdr.isNotCompressed = 0
  · rw [stereoContent_blank compressed]
    rfl
  · have mixed : unmixed (stereoContent dec.blank hdr r) = unmixed (stereoContent dec hdr r) := by
      rw [stereoContent, stereoContent, if_neg compressed, if_neg compressed]
      rfl
    by_cases size : dec.sampleSizeConfig = 16
    · have size' : dec.blank.sampleSizeConfig = 16 := size
      rw [stereoBytes, stereoBytes, if_pos size, if_pos size', mixed]
    · have size' : ¬ dec.blank.sampleSizeConfig = 16 := size
      have plain : ¬ 0 < hdr.uncompressedBytes := fun extra =>
        other ⟨sampleSizeConfig_24 ready size, compressed, extra⟩
      rw [stereoBytes, stereoBytes, if_neg size, if_neg size', stereoSamples24, stereoSamples24,
        if_neg plain, if_neg plain, mixed]

theorem run_eq_blank_iff (ready : Ready dec) {plan : Plan}
    (planned : dec.plan input output.length = plan) :
    plan.run dec output = plan.run dec.blank output ↔ ¬ dec.ShowsStale plan := by
  have planned' : dec.blank.plan input output.length = plan := planned
  cases plan with
  | nothing => exact ⟨fun _ => id, fun _ => rfl⟩
  | mono hdr r =>
    obtain ⟨channels, opened⟩ := plan_mono planned
    obtain ⟨channels', opened'⟩ := plan_mono planned'
    refine ⟨fun _ => id, fun _ => ?_⟩
    by_cases fits : OrdersFit (monoOrders hdr r) hdr.outputSamples
    · rw [mono_outcome ready channels opened fits, mono_outcome ready.blank channels' opened' fits]
      rfl
    · rw [mono_panic ready opened fits, mono_panic ready.blank opened' fits]
  | stereo hdr r =>
    obtain ⟨channels, opened, range⟩ := plan_stereo planned
    obtain ⟨channels', opened', -⟩ := plan_stereo planned'
    by_cases fits : OrdersFit (stereoOrders hdr r) hdr.outputSamples
    · rw [stereo_outcome ready channels opened fits,
        stereo_outcome ready.blank channels' opened' fits, Prod.mk.injEq, and_iff_left rfl]
      by_cases stale : dec.sampleSizeConfig = 24 ∧ hdr.isNotCompressed ≠ 0 ∧
          0 < hdr.uncompressedBytes
      · obtain ⟨size, verbatim, extra⟩ := stale
        have lengths : (stereoBytes dec hdr (stereoContent dec hdr r)).length =
            (stereoBytes dec.blank hdr (stereoContent dec.blank hdr r)).length :=
          (length_stereoBytes_24 ready size opened.inside).trans
            (length_stereoBytes_24 ready.blank size opened'.inside).symm
        rw [overwrite_eq_iff lengths,
          verbatim_bytes_iff ready size verbatim extra range opened.inside]
        constructor
        · rintro zero ⟨-, -, -, x, mem, shows⟩
          exact shows (zero x mem)
        · intro hidden x mem
          by_contra shows
          exact hidden ⟨size, verbatim, extra, x, mem, shows⟩
      · rw [stereoBytes_blank stale ready]
        exact ⟨fun _ h => stale ⟨h.1, h.2.1, h.2.2.1⟩, fun _ => rfl⟩
    · rw [stereo_panic ready opened fits, stereo_panic ready.blank opened' fits]
      refine ⟨fun _ h => fits ?_, fun _ => rfl⟩
      rw [stereoOrders, if_neg h.2.1]
      intro m mem
      cases mem

theorem AlacDecoder.blank_setInfo (sampleSize numChannels : Word) (config : List UInt8) :
    ((AlacDecoder.new sampleSize numChannels).setInfo config).blank =
      (AlacDecoder.new sampleSize numChannels).setInfo config := by
  rw [setInfo]
  split
  · rfl
  · rw [configure]
    split
    · rfl
    · rw [enable]
      split
      · rfl
      · simp [blank, allocateBuffers]

/-- For every configuration, every history and every next frame: `decode_frame` returns the
length and writes the bytes of a freshly configured decoder exactly if the frame does not
show stale low bytes. -/
theorem decodeFrame_memoryless_iff (sampleSize numChannels : Word) (config : List UInt8)
    (history : List (List UInt8 × List UInt8)) (input output : List UInt8) :
    let fresh := (AlacDecoder.new sampleSize numChannels).setInfo config
    let dec := fresh.after history
    (dec.decodeFrame input output).2 = (fresh.decodeFrame input output).2 ↔
      ¬ dec.ShowsStale (fresh.plan input output.length) := by
  intro fresh dec
  have same : dec.blank = fresh.blank := AlacDecoder.blank_after fresh history
  have blank : dec.blank = fresh := same.trans (AlacDecoder.blank_setInfo _ _ config)
  rw [decodeFrame_plan, decodeFrame_plan, AlacDecoder.plan_congr same]
  have unconfigured : (AlacDecoder.new sampleSize numChannels).maxSamplesPerFrame = 0 := rfl
  rcases AlacDecoder.ready_setInfo unconfigured config with ready | disabled
  · have planned : dec.plan input output.length = fresh.plan input output.length :=
      AlacDecoder.plan_congr same input output.length
    have iff := run_eq_blank_iff (ready.congr same) planned
    rwa [blank] at iff
  · have nothing : fresh.plan input output.length = .nothing :=
      AlacDecoder.plan_disabled disabled input output.length
    rw [nothing]
    exact ⟨fun _ => id, fun _ => rfl⟩

/-- A configuration of 24-bit stereo frames of one sample. -/
def stereo24Config : List UInt8 :=
  List.replicate 27 0 ++ [1, 0, 24, 40, 10, 14, 2] ++ List.replicate 14 0

/-- A compressed frame with one uncompressed byte in each channel. -/
def lowBytesFrame : List UInt8 := [32, 0, 4, 0, 0, 0, 0, 0, 1, 255, 220]

/-- A verbatim frame that announces one uncompressed byte. -/
def verbatimFrame : List UInt8 := [32, 0, 6, 0, 0, 10, 0, 0, 12]

/-- The low bytes of the first frame come out below the samples of the second one. -/
theorem verbatimFrame_shows_stale :
    let fresh := (AlacDecoder.new 24 2).setInfo stereo24Config
    let dec := fresh.after [(lowBytesFrame, [0, 0, 0, 0, 0, 0])]
    (dec.decodeFrame verbatimFrame [0, 0, 0, 0, 0, 0]).2 = ([255, 5, 0, 238, 6, 0], some 6) ∧
      (fresh.decodeFrame verbatimFrame [0, 0, 0, 0, 0, 0]).2 = ([0, 5, 0, 0, 6, 0], some 6) := by
  decide +kernel

end Shairplay.Codec
