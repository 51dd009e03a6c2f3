import Shairplay.Codec.Alac.Checked
import Shairplay.Codec.Alac.Overflow

/-!
# When every shift is in range

A frame is decoded in the same way with and without overflow checks, except where the source
shifts by an amount from the configuration or from the frame: the mask of the Rice limit, the
parameter of a code, the number of bits of an escape code or of a sample, and the interlacing
shift. `Plan.ShiftsFit` is what a frame has to meet there. A build with checks decodes a frame
exactly as one without them if the frame meets it, and panics if it does not.

Whether a frame meets it depends on the values it codes, since they choose the parameters. For
a history that settles it depends on the headers and the configuration alone.
-/

namespace Shairplay.Codec

open Lib Lib.Attempt
open AlacDecoder (Ready)

namespace Checked

section Predictor

variable {size quant : Word}

theorem deltaRound_guarded (short : size.toNat ≤ 32) (errors : List Word) (i : Nat)
    (s : List Word × List (BitVec 16)) :
    Guarded (0 < size.toNat) (deltaRound errors size i) (Codec.deltaRound errors size i) s := by
  refine .bind_same rfl fun _ _ _ => .bind_same rfl fun _ t _ => ?_
  exact .value_same (signExtend32_guarded _ short t) rfl

theorem rounding_eq {σ : Type} {pq : Word} (bounded : pq.toNat < 16) :
    (rounding pq : Attempt σ (BitVec 64)) =
      pure (if pq = 0 then 0 else ↑(1 <<< ((pq - 1).toNat % 64))) := by
  rw [rounding]
  split
  · rfl
  · rename_i nonzero
    have positive : 0 < pq.toNat :=
      Nat.pos_of_ne_zero fun zero => nonzero (BitVec.eq_of_toNat_eq zero)
    have amount : (pq - 1).toNat = pq.toNat - 1 :=
      BitVec.toNat_sub_of_le (show (1 : Word) ≤ pq from positive)
    exact shifted_eq _ (by omega)

theorem nextSample_guarded {σ : Type} (short : size.toNat ≤ 32) (narrow : quant.toNat < 16)
    (sum : BitVec 64) (base error : Word) (s : σ) :
    Guarded (0 < size.toNat) (nextSample size quant sum base error)
      (pure (Codec.nextSample size quant sum base error)) s := by
  rw [nextSample, Codec.nextSample]
  have bounded : (if quant.toInt < 0 then 0 else quant).toNat < 16 := by
    split
    · decide
    · exact narrow
  generalize (if quant.toInt < 0 then 0 else quant) = pq at bounded ⊢
  rw [rounding_eq bounded, pure_bind, sar64, shifted_eq _ (by omega), pure_bind]
  exact signExtend32_guarded _ short s

theorem adaptLoop_eq (narrow : quant.toNat < 16) (coefNum off : Nat) (d : Direction) (pn : Nat)
    (ev : Word) :
    adaptLoop coefNum off quant d pn ev = Codec.adaptLoop coefNum off quant d pn ev := by
  induction pn generalizing ev with
  | zero => rfl
  | succ pn ih =>
    have inRange : quant.toNat < 32 := by omega
    simp only [adaptLoop, Codec.adaptLoop, sar_eq _ inRange, pure_bind, ih]

theorem predictorRound_guarded (short : size.toNat ≤ 32) (narrow : quant.toNat < 16)
    (coefNum off : Nat) (errorVal : Word) (s : List Word × List (BitVec 16)) :
    Guarded (0 < size.toNat) (predictorRound size quant coefNum off errorVal)
      (Codec.predictorRound size quant coefNum off errorVal) s := by
  refine .bind_same rfl fun sum _ _ => .bind_same rfl fun base t _ => ?_
  refine .value_same (nextSample_guarded short narrow sum base errorVal t) ?_
  simp only [adaptLoop_eq narrow]

/-- What the shifts of the predictor need: bits in a sample, unless it extends no sign. -/
def PredictorFits (count : Nat) (readsamplesize : Word) (coefNum : Nat) : Prop :=
  0 < readsamplesize.toNat ∨ coefNum = 0 ∨ coefNum = 31 ∧ count ≤ 1

theorem predictor_guarded (short : size.toNat ≤ 32) (narrow : quant.toNat < 16)
    {errors : List Word} {count : Nat} (coefNum : Nat) {s : List Word × List (BitVec 16)}
    (samples : ¬ (count = 0 ∨ errors = [] ∨ s.1 = [])) :
    Guarded (PredictorFits count size coefNum)
      (predictorDecompressFirAdapt errors count size coefNum quant)
      (Codec.predictorDecompressFirAdapt errors count size coefNum quant) s := by
  have deltas (n : Nat) (t : List Word × List (BitVec 16)) :
      Guarded (n = 0 ∨ 0 < size.toNat) (Attempt.forRange n (deltaRound errors size))
        (Attempt.forRange n (Codec.deltaRound errors size)) t :=
    .forRange (P := fun _ => True) (fun _ _ _ => trivial)
      (fun i t _ => deltaRound_guarded short errors i t) n trivial
  refine .bind_same rfl fun out t run => ?_
  cases run
  refine .ite (fun empty => absurd empty samples) fun _ => ?_
  refine .bind_same rfl fun first t _ => .bind_same rfl fun _ t _ => ?_
  rw [PredictorFits]
  refine .ite (fun zero => ?_) fun nonzero => .ite (fun all => ?_) fun general => ?_
  · refine (Guarded.of_eq ?_).congr (by simp [zero])
    rfl
  · refine .ite (fun one => ?_) fun several => ?_
    · exact (Guarded.of_eq rfl).congr (by simp [all, one])
    · exact (deltas (count - 1) t).congr (by omega)
  · refine (Guarded.bind_rest (deltas coefNum t) ?_).congr (by omega)
    intro positive _ u _
    have rounds : Guarded True (Attempt.slice errors (coefNum + 1) count >>= fun rest =>
          Attempt.forEnum (predictorRound size quant coefNum) 0 rest)
        (Attempt.slice errors (coefNum + 1) count >>= fun rest =>
          Attempt.forEnum (Codec.predictorRound size quant coefNum) 0 rest) u := by
      refine .bind_same rfl fun rest u' _ => ?_
      exact (Guarded.forEnum (predictorRound_guarded short narrow coefNum) 0 rest).congr
        (iff_true_intro (.inr (positive.resolve_left nonzero)))
    exact rounds.1 trivial

end Predictor

theorem riceParams_guarded {σ : Type} (dec : AlacDecoder) (hdr : PredictorHeader) (s : σ) :
    Guarded (dec.riceKModifier.toNat < 32) (riceParams dec hdr) (pure (dec.riceParams hdr)) s := by
  refine (Guarded.value_same (shifted_guarded ((1 : Word) <<< ·) _ s) rfl).congr ?_
  rw [BitVec.toNat_setWidth, Nat.mod_eq_of_lt (by omega)]

/-- What the shifts of a compressed channel need: a Rice limit below the width of a word, and
what its rounds and its predictor need. -/
def ChannelFits (dec : AlacDecoder) (count : Nat) (readsamplesize : Word) (hdr : PredictorHeader)
    (r : BitReader) : Prop :=
  dec.riceKModifier.toNat < 32 ∧
    (∀ round ∈ riceRounds readsamplesize (dec.riceParams hdr) count
        (dec.riceParams hdr).initialHistory 0 r,
      RoundFits readsamplesize (dec.riceParams hdr) round) ∧
    PredictorFits count readsamplesize hdr.predNum

theorem channelFits_congr {dec dec' : AlacDecoder} (same : dec'.blank = dec.blank) (count : Nat)
    (readsamplesize : Word) (hdr : PredictorHeader) (r : BitReader) :
    ChannelFits dec' count readsamplesize hdr r = ChannelFits dec count readsamplesize hdr r := by
  have fits := congrArg (fun d : AlacDecoder => ChannelFits d count readsamplesize hdr r) same
  exact fits

theorem small_channelSamples {r : BitReader} (dec : AlacDecoder) (count : Nat) (size : Word)
    (hdr : PredictorHeader) (small : Small r) : Small (channelSamples dec count size hdr r).2 := by
  have kept : ∃ _ _ : Word, Small (channelErrors size (dec.riceParams hdr) count r).2 := by
    apply riceValues_keeps (P := fun _ _ r => Small r)
    · intro round small _
      exact small_entropyDecodeValue _ _ _ (small_entropyDecodeValue _ _ _ small)
    · intro round small _
      exact small_entropyDecodeValue _ _ _ small
    · exact small
  obtain ⟨-, -, small⟩ := kept
  exact small

section Channel

variable {s : FrameState} {count : Nat} {size : Word} {hdr : PredictorHeader}
  (ready : Ready s.dec) (samples : 0 < count) (inside : count ≤ s.dec.maxSamplesPerFrame.toNat)
  (channelB : Bool)
include ready samples inside

theorem decodeChannel_guarded (short : size.toNat ≤ 32) (narrow : hdr.predQuant.toNat < 16)
    (small : Small s.reader) :
    Guarded (ChannelFits s.dec count size hdr s.reader) (decodeChannel channelB count size hdr)
      (Codec.decodeChannel channelB count size hdr) s := by
  have roomErrors : count ≤ (s.dec.predicterrorBuffer channelB).length := by
    rw [ready.predicterror]; exact inside
  have room : count ≤ (s.dec.outputsamplesBuffer channelB).length := by
    rw [ready.outputsamples]; exact inside
  refine .of_run (view_bind _ _ s) (view_bind _ _ s) ?_
  refine .value (riceParams_guarded s.dec hdr s) ?_
  refine .bind (.focus (entropyRiceDecode_guarded short _ count small _)) ?_
  intro _ t run
  rw [focus_run, entropyRiceDecode_run size (s.dec.riceParams hdr) roomErrors s.reader] at run
  obtain rfl := (congrArg Prod.snd run).symm
  refine .of_run (view_bind _ _ _) (view_bind _ _ _) (.focus ?_)
  apply predictor_guarded short narrow
  simp only [FrameState.setErrors, AlacDecoder.predicterrorBuffer_setPredicterrorBuffer,
    AlacDecoder.outputsamplesBuffer_setPredicterrorBuffer]
  rintro (none | empty | empty)
  · omega
  · have length := congrArg List.length empty
    rw [length_overwrite (by rw [length_channelErrors]; exact roomErrors), List.length_nil] at length
    omega
  · rw [empty, List.length_nil] at room
    omega

theorem of_decodeChannel (table : hdr.predNum ≤ hdr.predTable.length) {t : FrameState} {u : Unit}
    (run : Codec.decodeChannel channelB count size hdr s = (some u, t)) :
    ChannelDecoded channelB (channelSamples s.dec count size hdr s.reader) s t := by
  have order := orderFits_of_decodeChannel ready samples inside (by rw [run]; rfl)
  obtain ⟨_, t', run', decoded⟩ := decodeChannel_ensures ready channelB inside size order table
  cases run.symm.trans run'
  exact decoded

/-- Two channels, one after the other. -/
theorem decodeChannels_guarded (short : size.toNat ≤ 32) {hdrA hdrB : PredictorHeader}
    (narrowA : hdrA.predQuant.toNat < 16) (narrowB : hdrB.predQuant.toNat < 16)
    (table : hdrA.predNum ≤ hdrA.predTable.length) (small : Small s.reader) {α : Type} (a : α) :
    Guarded (ChannelFits s.dec count size hdrA s.reader ∧
        ChannelFits s.dec count size hdrB (channelSamples s.dec count size hdrA s.reader).2)
      (decodeChannel false count size hdrA >>= fun _ =>
        decodeChannel true count size hdrB >>= fun _ => pure a)
      (Codec.decodeChannel false count size hdrA >>= fun _ =>
        Codec.decodeChannel true count size hdrB >>= fun _ => pure a) s := by
  refine .bind (decodeChannel_guarded ready samples inside false short narrowA small) ?_
  intro _ t run
  have decoded := of_decodeChannel ready samples inside false table run
  have inside' : count ≤ t.dec.maxSamplesPerFrame.toNat := by
    rw [AlacDecoder.maxSamplesPerFrame_congr decoded.blank]
    exact inside
  have behind : Small t.reader := by
    rw [decoded.reader]
    exact small_channelSamples _ _ _ _ small
  have second := decodeChannel_guarded (ready.congr decoded.blank) samples inside' true short
    narrowB behind
  rw [channelFits_congr decoded.blank, decoded.reader] at second
  exact .bind_rest second fun _ _ _ _ => rfl

end Channel

section Headers

variable {r : BitReader}

theorem small_produce {β : Type} {step : BitReader → β × BitReader} (each : ∀ r, Small (step r).2)
    (count : Nat) (small : Small r) : Small (produce step count r).2 := by
  induction count generalizing r with
  | zero => exact small
  | succ count ih => exact ih (each r)

theorem parseSubframeHeader_run (outputSamples outputSize bytesPerSample : Nat) (small : Small r) :
    parseSubframeHeader outputSamples outputSize bytesPerSample r =
      (some (Codec.parseSubframeHeader outputSamples outputSize bytesPerSample r).1,
        (Codec.parseSubframeHeader outputSamples outputSize bytesPerSample r).2) := by
  rw [parseSubframeHeader, readbits_bind small (by decide),
    readbits_bind (small_readbits _ _) (by decide), readbits_bind (small_readbits _ _) (by decide),
    readbits_bind (small_readbits _ _) (by decide), readbits_bind (small_readbits _ _) (by decide),
    Codec.parseSubframeHeader]
  dsimp only
  split
  · rw [readbits_bind (small_readbits _ _) (by decide)]
    rfl
  · rfl

theorem small_header (dec : AlacDecoder) (r : BitReader) : Small (dec.header r).2 := by
  rw [AlacDecoder.header, Codec.parseSubframeHeader]
  dsimp only
  split
  · exact small_readbits _ _
  · exact small_readbits _ _

theorem readMany_run {bits : Word} (short : bits.toNat ≤ 32) (count : Nat) (small : Small r) :
    readMany bits count r =
      (some (Codec.readMany bits count r).1, (Codec.readMany bits count r).2) := by
  induction count generalizing r with
  | zero => rfl
  | succ count ih =>
    rw [readMany, readbits_bind small short, bind_of_some (ih (small_readbits _ _))]
    rfl

theorem readPredictorHeader_run (small : Small r) :
    readPredictorHeader r = (some (predictorHeader r).1, (predictorHeader r).2) := by
  have order : ((((r.readbits 4).2.readbits 4).2.readbits 3).2.readbits 5).1.toNat ≤ 32 :=
    Nat.le_of_lt (readbits_lt _ 5 (by decide))
  rw [readPredictorHeader, readbits_bind small (by decide),
    readbits_bind (small_readbits _ _) (by decide), readbits_bind (small_readbits _ _) (by decide),
    readbits_bind (small_readbits _ _) (by decide), if_pos order,
    bind_of_some (readMany_run (by decide) _ (small_readbits _ _))]
  rfl

theorem small_predictorHeader (r : BitReader) : Small (predictorHeader r).2 := by
  have order := small_readbits (((r.readbits 4).2.readbits 4).2.readbits 3).2 5
  exact small_produce (fun r => small_readbits r 16) _ order

end Headers

/-- A checked way to read a value that never panics. -/
def Reads (c : Attempt BitReader Word) (read : BitReader → Word × BitReader) : Prop :=
  ∀ r, Small r → c r = (some (read r).1, (read r).2) ∧ Small (read r).2

section Fill

variable {β : Type} {c : Attempt BitReader Word} {read : BitReader → Word × BitReader}
  {bits : Word}

theorem Reads.readbits (short : bits.toNat ≤ 32) : Reads (readbits bits) fun r => r.readbits bits :=
  fun _ small => ⟨readbits_run small short, small_readbits _ _⟩

theorem Reads.readSample16 (low : 0 < bits.toNat) (short : bits.toNat ≤ 32) :
    Reads (readSample16 bits) (Codec.readSample16 bits) := by
  intro r small
  refine ⟨?_, small_readbits _ _⟩
  rw [Checked.readSample16, readbits_bind small short]
  exact (signExtend32_guarded _ short _).1 low

theorem Reads.readSample24 (low : 16 ≤ bits.toNat) (short : bits.toNat ≤ 32) :
    Reads (readSample24 bits) (Codec.readSample24 bits) := by
  have amount : (bits - 16).toNat = bits.toNat - 16 :=
    BitVec.toNat_sub_of_le (show (16 : Word) ≤ bits from low)
  intro r small
  refine ⟨?_, small_readbits _ _⟩
  rw [Checked.readSample24, readbits_bind small (by decide), shl_eq _ (by omega), pure_bind,
    readbits_bind (small_readbits _ _) (by omega)]
  rfl

variable (reads : Reads c read)
include reads

theorem reading_eq {r : BitReader} (small : Small r) (out : β) :
    reading c (r, out) = Codec.reading read (r, out) := by
  rw [reading, focus_run, (reads r small).1]
  rfl

theorem keeps_small_reading :
    Keeps (fun s : BitReader × β => Small s.1) (Codec.reading read) :=
  fun s small => (reads s.1 small).2

theorem fillBuffer_eq (count : Nat) {s : BitReader × List Word} (small : Small s.1) :
    fillBuffer count c s = Codec.fillBuffer count read s := by
  have loop : Guarded (count = 0 ∨ True) (fillBuffer count c) (Codec.fillBuffer count read) s := by
    refine .forRange (P := fun s => Small s.1) (fun i => ?_) (fun i t small => ?_) count small
    · exact .bind (keeps_small_reading reads) fun _ _ small => small
    · exact .bind_same (reading_eq reads small t.2) fun _ _ _ => .of_eq rfl
  exact loop.1 (.inr trivial)

theorem fillBuffers_eq (count : Nat) {s : BitReader × List Word × List Word} (small : Small s.1) :
    fillBuffers count c s = Codec.fillBuffers count read s := by
  have loop : Guarded (count = 0 ∨ True) (fillBuffers count c) (Codec.fillBuffers count read)
      s := by
    refine .forRange (P := fun s => Small s.1) (fun i => ?_) ?_ count small
    · refine .bind (keeps_small_reading reads) fun _ => .bind (fun _ small => small) fun _ => ?_
      exact .bind (keeps_small_reading reads) fun _ _ small => small
    · rintro i ⟨r, out⟩ small
      refine .bind_same (reading_eq reads small out) fun a u run => ?_
      obtain ⟨rfl, rfl⟩ := of_reading run
      refine .bind_same rfl fun _ v wrote => ?_
      obtain rfl := (congrArg Prod.snd wrote).symm
      exact .bind_same (reading_eq reads (reads _ small).2 _) fun _ _ _ => .of_eq rfl
  exact loop.1 (.inr trivial)

theorem fillBuffersTogether_eq (count : Nat) {s : BitReader × List Word × List Word}
    (small : Small s.1) :
    fillBuffersTogether count c s = Codec.fillBuffersTogether count read s := by
  have loop : Guarded (count = 0 ∨ True) (fillBuffersTogether count c)
      (Codec.fillBuffersTogether count read) s := by
    refine .forRange (P := fun s => Small s.1) (fun i => ?_) ?_ count small
    · refine .bind (keeps_small_reading reads) fun _ => .bind (keeps_small_reading reads) fun _ => ?_
      exact .bind (fun _ small => small) fun _ _ small => small
    · rintro i ⟨r, out⟩ small
      refine .bind_same (reading_eq reads small out) fun a u run => ?_
      obtain ⟨rfl, rfl⟩ := of_reading run
      exact .bind_same (reading_eq reads (reads _ small).2 _) fun _ _ _ => .of_eq rfl
  exact loop.1 (.inr trivial)

end Fill

theorem fillSlice_eq {bits : Word} (short : bits.toNat ≤ 32) (count : Nat)
    {s : BitReader × List Word} (small : Small s.1) :
    fillSlice bits count s = Codec.fillSlice bits count s := by
  rw [fillSlice, Codec.fillSlice, view_bind, view_bind]
  split
  · rename_i room
    rw [fillBuffer_eq (.readbits short) count small]
    exact fillBuffer_run _ room s.1
  · rfl

theorem toNat_lowBits {uncompressedBytes : Word} (few : uncompressedBytes.toNat < 4) :
    (uncompressedBytes * 8).toNat = 8 * uncompressedBytes.toNat := by
  have eight : (8 : Word).toNat = 8 := rfl
  rw [BitVec.toNat_mul, eight]
  omega

section Output

variable {uncompressedBytes : Word} {shift leftweight : BitVec 8}

theorem withLowBytes_eq {σ : Type} (few : uncompressedBytes.toNat < 4) (sample low : Word) :
    (withLowBytes uncompressedBytes sample low : Attempt σ Word) =
      pure (Codec.withLowBytes uncompressedBytes sample low) := by
  have bits := toNat_lowBits few
  rw [withLowBytes, lowMask, shl_eq _ (by omega), shl_eq _ (by omega)]
  rfl

theorem writeMono_eq {hdr : SubframeHeader} (few : hdr.uncompressedBytes.toNat < 4) :
    writeMono hdr = Codec.writeMono hdr := by
  have sample (i : Nat) : monoSample24 hdr i = Codec.monoSample24 hdr i := by
    simp only [monoSample24, Codec.monoSample24, withLowBytes_eq few]
  simp only [writeMono, Codec.writeMono, writeMono24, Codec.writeMono24, sample]

/-- What the interlacing of two channels needs. -/
def MixFits (shift leftweight : BitVec 8) : Prop := leftweight = 0 ∨ shift.toNat < 32

theorem unmix_guarded {σ : Type} (a b : Word) (s : σ) :
    Guarded (MixFits shift leftweight) (unmix shift leftweight a b)
      (pure (Codec.unmix shift leftweight a b)) s := by
  rw [unmix, Codec.unmix, MixFits]
  split
  · rename_i weighted
    refine (Guarded.value_same (shifted_guarded (BitVec.sshiftRight _) _ s) rfl).congr ?_
    rw [BitVec.toNat_setWidth, Nat.mod_eq_of_lt (by omega)]
    exact ⟨.inr, fun fits => fits.resolve_left weighted⟩
  · rename_i plain
    exact (Guarded.of_eq rfl).congr (by simp [not_not.mp plain])

theorem samples24_guarded (few : uncompressedBytes.toNat < 4) (i : Nat) (s : FrameState) :
    Guarded (MixFits shift leftweight) (samples24 uncompressedBytes shift leftweight i)
      (Codec.samples24 uncompressedBytes shift leftweight i) s := by
  refine .bind_same rfl fun a _ _ => .bind_same rfl fun b t _ => ?_
  refine .value_same (unmix_guarded a b t) ?_
  simp only [withLowBytes_eq few, pure_bind]

theorem writeStereo_guarded {hdr : SubframeHeader} (few : hdr.uncompressedBytes.toNat < 4)
    (samples : 0 < hdr.outputSamples) {s : FrameState} (ready : Ready s.dec) :
    Guarded (MixFits shift leftweight) (writeStereo hdr (shift, leftweight))
      (Codec.writeStereo hdr (shift, leftweight)) s := by
  refine .of_run (view_bind _ _ s) (view_bind _ _ s) ?_
  refine .ite (fun _ => .bind_rest ?_ fun _ _ _ _ => rfl) fun other => ?_
  · refine .forRange_of_pos (fun i t => ?_) samples
    refine .bind_same rfl fun a _ _ => .bind_same rfl fun b t _ => ?_
    exact .value_same (unmix_guarded a b t) rfl
  · have size := sampleSizeConfig_24 ready other
    rw [if_pos size, if_pos size]
    refine .bind_rest (.forRange_of_pos (fun i t => ?_) samples) fun _ _ _ _ => rfl
    exact .bind_rest (samples24_guarded few i t) fun _ _ _ _ => rfl

end Output

section Reading

variable {s : FrameState} {hdr : SubframeHeader} (few : hdr.uncompressedBytes.toNat < 4)
  (small : Small s.reader)
include few small

theorem readMonoLow_eq : readMonoLow hdr s = Codec.readMonoLow hdr s := by
  have bits := toNat_lowBits few
  rw [readMonoLow, Codec.readMonoLow]
  split
  · rw [focus_run, focus_run, fillSlice_eq (by omega) hdr.outputSamples small]
  · rfl

theorem readStereoLow_eq : readStereoLow hdr s = Codec.readStereoLow hdr s := by
  have bits := toNat_lowBits few
  rw [readStereoLow, Codec.readStereoLow]
  split
  · rw [focus_run, focus_run, fillBuffers_eq (.readbits (by omega)) hdr.outputSamples small]
  · rfl

omit few in
theorem readMonoVerbatim_eq (ready : Ready s.dec) :
    readMonoVerbatim hdr.outputSamples s.dec.sampleSize s =
      Codec.readMonoVerbatim hdr.outputSamples s.dec.sampleSize s := by
  rw [readMonoVerbatim, Codec.readMonoVerbatim, AlacDecoder.sampleSize]
  rcases ready.sampleSize with depth | depth
  · rw [depth, if_pos (by decide), if_pos (by decide), focus_run, focus_run,
      fillBuffer_eq (.readSample16 (by decide) (by decide)) hdr.outputSamples small]
  · rw [depth, if_neg (by decide), if_neg (by decide), focus_run, focus_run,
      fillBuffer_eq (.readSample24 (by decide) (by decide)) hdr.outputSamples small]

omit few in
theorem readStereoVerbatim_eq (ready : Ready s.dec) :
    readStereoVerbatim hdr.outputSamples s.dec.sampleSize s =
      Codec.readStereoVerbatim hdr.outputSamples s.dec.sampleSize s := by
  rw [readStereoVerbatim, Codec.readStereoVerbatim, AlacDecoder.sampleSize]
  rcases ready.sampleSize with depth | depth
  · rw [depth, if_pos (by decide), if_pos (by decide), focus_run, focus_run,
      fillBuffersTogether_eq (.readSample16 (by decide) (by decide)) hdr.outputSamples small]
  · rw [depth, if_neg (by decide), if_neg (by decide), focus_run, focus_run,
      fillBuffers_eq (.readSample24 (by decide) (by decide)) hdr.outputSamples small]

variable (ready : Ready s.dec) (inside : hdr.outputSamples ≤ s.dec.maxSamplesPerFrame.toNat)
include ready inside

theorem readMono_run (compressed : hdr.isNotCompressed = 0) (size : Word) :
    readMono hdr size s = decodeChannel false hdr.outputSamples size (monoPredictor s.reader).1
      (monoStart hdr s) := by
  have start : readMonoLow hdr (s.setReader (monoPredictor s.reader).2) =
      (some (), monoStart hdr s) := by
    rw [readMonoLow_eq few (small_predictorHeader _)]
    exact readMonoLow_run (show _ ≤ s.dec.uncompressedBytesBufferA.length by
      rw [ready.uncompressedA]; exact inside)
  rw [readMono, if_pos compressed, Decode.read_bind (readbits_run small (by decide)),
    Decode.read_bind (readbits_run (small_readbits _ _) (by decide)),
    Decode.read_bind (readPredictorHeader_run (small_readbits _ _))]
  exact bind_of_some start _

theorem readStereo_run (compressed : hdr.isNotCompressed = 0) (size : Word) :
    readStereo hdr size s =
      (decodeChannel false hdr.outputSamples size (stereoPredictors s.reader).1.1 >>= fun _ =>
        decodeChannel true hdr.outputSamples size (stereoPredictors s.reader).1.2 >>= fun _ =>
        pure ((s.reader.readbits 8).1.setWidth 8,
          ((s.reader.readbits 8).2.readbits 8).1.setWidth 8)) (stereoStart hdr s) := by
  have start : readStereoLow hdr (s.setReader (stereoPredictors s.reader).2) =
      (some (), stereoStart hdr s) := by
    rw [readStereoLow_eq few (small_predictorHeader _)]
    exact readStereoLow_run
      (show _ ≤ s.dec.uncompressedBytesBufferA.length by rw [ready.uncompressedA]; exact inside)
      (show _ ≤ s.dec.uncompressedBytesBufferB.length by rw [ready.uncompressedB]; exact inside)
  rw [readStereo, if_pos compressed, Decode.read_bind (readbits_run small (by decide)),
    Decode.read_bind (readbits_run (small_readbits _ _) (by decide)),
    Decode.read_bind (readPredictorHeader_run (small_readbits _ _)),
    Decode.read_bind (readPredictorHeader_run (small_predictorHeader _))]
  exact bind_of_some start _

end Reading

section Sizes

variable {dec : AlacDecoder} {hdr : SubframeHeader} {r : BitReader}

theorem predQuant_lt (r : BitReader) : (predictorHeader r).1.predQuant.toNat < 16 :=
  readbits_lt _ 4 (by decide)

theorem small_monoLow (hdr : SubframeHeader) (small : Small r) : Small (monoLow hdr r).2 := by
  rw [monoLow]
  split
  · exact small_produce (fun _ => small_readbits _ _) _ small
  · exact small

theorem small_stereoLow (hdr : SubframeHeader) (small : Small r) : Small (stereoLow hdr r).2 := by
  rw [stereoLow]
  split
  · refine small_produce (fun r => ?_) _ small
    exact small_readbits (r.readbits _).2 _
  · exact small

/-- The header leaves room for the uncompressed bytes in a sample. -/
theorem whole_of_verdict {room : Nat} (passed : hdr.verdict dec room = .decodes) :
    hdr.uncompressedBytes * 8 ≤ dec.sampleSize := by
  rw [SubframeHeader.verdict] at passed
  split at passed
  · cases passed
  · split at passed
    · cases passed
    · split at passed
      · cases passed
      · rename_i enough
        exact BitVec.not_lt.mp enough

variable (ready : Ready dec) (whole : hdr.uncompressedBytes * 8 ≤ dec.sampleSize)
include ready whole

theorem toNat_monoSize_le : (monoSize dec hdr).toNat ≤ 24 := by
  have depth : dec.sampleSize.toNat ≤ 24 := by
    rw [AlacDecoder.sampleSize]
    rcases ready.sampleSize with h | h <;> (rw [h]; decide)
  rw [monoSize, BitVec.toNat_sub_of_le whole]
  omega

theorem toNat_stereoSize : (stereoSize dec hdr).toNat = (monoSize dec hdr).toNat + 1 := by
  have bound := toNat_monoSize_le ready whole
  have one : (1 : Word).toNat = 1 := rfl
  show (monoSize dec hdr + 1).toNat = _
  rw [BitVec.toNat_add, one]
  omega

end Sizes

end Checked

open Checked (ChannelFits MixFits Small)

/-- What the shifts of a frame need. A frame that asks for nothing or stores its samples
verbatim needs nothing. -/
def Plan.ShiftsFit (dec : AlacDecoder) : Plan → Prop
  | .nothing => True
  | .mono hdr r => hdr.isNotCompressed = 0 →
      ChannelFits dec hdr.outputSamples (monoSize dec hdr) (monoPredictor r).1
        (monoLow hdr (monoPredictor r).2).2
  | .stereo hdr r => hdr.isNotCompressed = 0 →
      let low := stereoLow hdr (stereoPredictors r).2
      let a := channelSamples dec hdr.outputSamples (stereoSize dec hdr) (stereoPredictors r).1.1
        low.2
      (ChannelFits dec hdr.outputSamples (stereoSize dec hdr) (stereoPredictors r).1.1 low.2 ∧
        ChannelFits dec hdr.outputSamples (stereoSize dec hdr) (stereoPredictors r).1.2 a.2) ∧
      MixFits ((r.readbits 8).1.setWidth 8) (((r.readbits 8).2.readbits 8).1.setWidth 8)

namespace Checked

section Frame

variable {s : FrameState} {hdr : SubframeHeader} (ready : Ready s.dec)
  (opened : Opened s.dec hdr s.output.length) (few : hdr.uncompressedBytes.toNat < 4)
  (whole : hdr.uncompressedBytes * 8 ≤ s.dec.sampleSize) (small : Small s.reader)
include ready opened few whole small

theorem readMono_guarded :
    Guarded ((Plan.mono hdr s.reader).ShiftsFit s.dec) (readMono hdr (monoSize s.dec hdr))
      (Codec.readMono hdr (monoSize s.dec hdr)) s := by
  have size := toNat_monoSize_le ready whole
  by_cases compressed : hdr.isNotCompressed = 0
  · have blank := blank_monoStart ready opened.inside
    have behind : Small (monoStart hdr s).reader := small_monoLow hdr (small_predictorHeader _)
    refine (Guarded.of_run (readMono_run few small ready opened.inside compressed _)
      (readMono_compressed ready opened.inside compressed _)
      (decodeChannel_guarded (ready.congr blank) opened.samples opened.inside false (by omega)
        (predQuant_lt _) behind)).congr ?_
    rw [channelFits_congr blank]
    exact ⟨fun fits _ => fits, fun fits => fits compressed⟩
  · rw [readMono, Codec.readMono, if_neg compressed, if_neg compressed]
    refine .of_run (view_bind _ _ s) (view_bind _ _ s) ?_
    exact (Guarded.of_eq (readMonoVerbatim_eq small ready)).congr
      ⟨fun _ yes => absurd yes compressed, fun _ => trivial⟩

theorem readStereo_guarded :
    Guarded (hdr.isNotCompressed = 0 →
        let low := stereoLow hdr (stereoPredictors s.reader).2
        let a := channelSamples s.dec hdr.outputSamples (stereoSize s.dec hdr)
          (stereoPredictors s.reader).1.1 low.2
        ChannelFits s.dec hdr.outputSamples (stereoSize s.dec hdr)
            (stereoPredictors s.reader).1.1 low.2 ∧
          ChannelFits s.dec hdr.outputSamples (stereoSize s.dec hdr)
            (stereoPredictors s.reader).1.2 a.2)
      (readStereo hdr (stereoSize s.dec hdr)) (Codec.readStereo hdr (stereoSize s.dec hdr)) s := by
  have size := toNat_monoSize_le ready whole
  have size' := toNat_stereoSize ready whole
  by_cases compressed : hdr.isNotCompressed = 0
  · have blank := blank_stereoStart ready opened.inside
    have behind : Small (stereoStart hdr s).reader :=
      small_stereoLow hdr (small_predictorHeader _)
    refine (Guarded.of_run (readStereo_run few small ready opened.inside compressed _)
      (readStereo_compressed ready opened.inside compressed _)
      (decodeChannels_guarded (ready.congr blank) opened.samples opened.inside (by omega)
        (predQuant_lt _) (predQuant_lt _) (predNum_le_length _) behind _)).congr ?_
    rw [channelFits_congr blank, channelFits_congr blank, channelSamples_congr blank]
    exact ⟨fun fits _ => fits, fun fits => fits compressed⟩
  · rw [readStereo, Codec.readStereo, if_neg compressed, if_neg compressed]
    refine .of_run (view_bind _ _ s) (view_bind _ _ s) ?_
    refine (Guarded.bind_same (readStereoVerbatim_eq small ready) fun _ _ _ =>
      .of_eq rfl).congr ?_
    exact ⟨fun _ yes => absurd yes compressed, fun _ => trivial⟩

theorem decodeStereo_body_guarded :
    Guarded ((Plan.stereo hdr s.reader).ShiftsFit s.dec)
      (do let mix ← readStereo hdr (stereoSize s.dec hdr)
          let ok ← writeStereo hdr mix
          pure (ok, hdr.outputSize))
      (do let mix ← Codec.readStereo hdr (stereoSize s.dec hdr)
          let ok ← Codec.writeStereo hdr mix
          pure (ok, hdr.outputSize)) s := by
  let content := stereoContent s.dec hdr s.reader
  have body := Guarded.bind (q := MixFits content.shift content.leftweight)
    (f := fun mix => writeStereo hdr mix >>= fun ok => pure (ok, hdr.outputSize))
    (g := fun mix => Codec.writeStereo hdr mix >>= fun ok => pure (ok, hdr.outputSize))
    (readStereo_guarded ready opened few whole small) (by
      intro mix t run
      have orders := ordersFit_of_readStereo ready opened.samples opened.inside (by rw [run]; rfl)
      obtain ⟨_, t', run', rfl, read⟩ := readStereo_ensures ready opened.inside orders
      cases run.symm.trans run'
      exact .bind_rest (writeStereo_guarded few opened.samples (ready.congr read.blank))
        fun _ _ _ _ => rfl)
  apply body.congr
  by_cases compressed : hdr.isNotCompressed = 0
  · simp only [content, stereoContent, if_pos compressed, Plan.ShiftsFit]
    exact ⟨fun both _ => ⟨both.1 compressed, both.2⟩,
      fun fits => ⟨fun _ => (fits compressed).1, (fits compressed).2⟩⟩
  · simp only [content, stereoContent, if_neg compressed]
    exact ⟨fun _ yes => absurd yes compressed, fun _ => ⟨fun yes => absurd yes compressed, .inl rfl⟩⟩

end Frame

section Element

variable {s : FrameState} (ready : Ready s.dec) (small : Small s.reader)
include small

theorem openSubframe_eq : openSubframe s = Codec.openSubframe s := by
  rw [openSubframe, view_bind, Decode.read_bind (parseSubframeHeader_run _ _ _ small)]
  rfl

omit small in
theorem of_openSubframe {opened : SubframeHeader × Verdict} {t : FrameState}
    (run : Codec.openSubframe s = (some opened, t)) :
    opened = ((s.dec.header s.reader).1, (s.dec.header s.reader).1.verdict s.dec s.output.length) ∧
      t = s.setReader (s.dec.header s.reader).2 := by
  cases run
  exact ⟨rfl, rfl⟩

include ready

theorem decodeMono_guarded :
    Guarded ((Plan.checked ((s.dec.header s.reader).1.verdict s.dec s.output.length)
        (.mono (s.dec.header s.reader).1 (s.dec.header s.reader).2)).ShiftsFit s.dec)
      decodeMono Codec.decodeMono s := by
  refine .bind_same (openSubframe_eq small) fun opened t run => ?_
  obtain ⟨rfl, rfl⟩ := of_openSubframe run
  cases passed : (s.dec.header s.reader).1.verdict s.dec s.output.length with
  | refused => exact .of_eq rfl
  | empty => exact .of_eq rfl
  | decodes =>
    refine .of_run (view_bind _ _ _) (view_bind _ _ _) ?_
    rw [writeMono_eq (uncompressedBytes_lt _ _)]
    exact .bind_rest (readMono_guarded (s := s.setReader (s.dec.header s.reader).2) ready
      (opened_of_verdict passed) (uncompressedBytes_lt _ _) (whole_of_verdict passed)
      (small_header _ _)) fun _ _ _ _ => rfl

theorem decodeStereo_guarded :
    Guarded ((Plan.checked ((s.dec.header s.reader).1.verdict s.dec s.output.length)
        (.stereo (s.dec.header s.reader).1 (s.dec.header s.reader).2)).ShiftsFit s.dec)
      decodeStereo Codec.decodeStereo s := by
  refine .bind_same (openSubframe_eq small) fun opened t run => ?_
  obtain ⟨rfl, rfl⟩ := of_openSubframe run
  cases passed : (s.dec.header s.reader).1.verdict s.dec s.output.length with
  | refused => exact .of_eq rfl
  | empty => exact .of_eq rfl
  | decodes =>
    exact .of_run (view_bind _ _ _) (view_bind _ _ _) (decodeStereo_body_guarded
      (s := s.setReader (s.dec.header s.reader).2) ready (opened_of_verdict passed)
      (uncompressedBytes_lt _ _) (whole_of_verdict passed) (small_header _ _))

theorem decodeElement_guarded (channels : Word) :
    Guarded ((s.dec.elementPlan channels s.reader s.output.length).ShiftsFit s.dec)
      (decodeElement channels) (Codec.decodeElement channels) s := by
  refine .of_run (view_bind _ _ s) (view_bind _ _ s) ?_
  rw [AlacDecoder.elementPlan]
  split
  · split
    · exact .of_eq rfl
    · exact decodeMono_guarded ready small
  · split
    · split
      · exact .of_eq rfl
      · exact decodeStereo_guarded ready small
    · exact .of_eq rfl

end Element

theorem decodeBody_guarded {dec : AlacDecoder} (ready : Ready dec) (input output : List UInt8) :
    Guarded ((dec.plan input output.length).ShiftsFit dec) decodeBody Codec.decodeBody
      ⟨dec, .new input, output⟩ := by
  have start : Small (BitReader.new input) := show (0 : Word).toNat < 8 by decide
  refine .of_run (view_bind _ _ _) (view_bind _ _ _) ?_
  rw [AlacDecoder.plan]
  dsimp only [id]
  split
  · exact .of_eq rfl
  · refine .of_run (Decode.read_bind (readbits_run start (by decide)) _)
      (Decode.readbits_bind _ _) ?_
    split
    · exact .of_eq rfl
    · refine .bind_rest (decodeElement_guarded
        (s := ⟨dec, ((BitReader.new input).readbits 3).2, output⟩) ready (small_readbits _ _) _) ?_
      exact fun _ _ _ _ => rfl

def after (dec : AlacDecoder) (frames : List (List UInt8 × List UInt8)) : AlacDecoder :=
  frames.foldl (fun d frame => (decodeFrame d frame.1 frame.2).1) dec

section Settled

variable {r : BitReader}

theorem seek_of_small (small : Small r) : r = .seek r.buf (8 * r.pos + r.bit.toNat) := by
  obtain ⟨buf, pos, bit⟩ := r
  have small : bit.toNat < 8 := small
  rw [BitReader.seek]
  congr 1
  · dsimp only
    omega
  · apply BitVec.eq_of_toNat_eq
    rw [BitVec.toNat_ofNat]
    dsimp only
    omega

theorem entropyFits_of_lt {size k : Word} (low : 0 < size.toNat) (narrow : k.toNat < 32)
    (r : BitReader) : EntropyFits size k r := by
  rw [EntropyFits]
  split
  · exact low
  · exact narrow

theorem ricemod_lt (r : BitReader) : (predictorHeader r).1.ricemod.toNat < 8 :=
  readbits_lt _ 3 (by decide)

/-- A history that settles keeps every parameter of a channel small. -/
theorem channelFits_of_settles {dec : AlacDecoder} {hdr : PredictorHeader} {size : Word}
    (limit : dec.riceKModifier.toNat < 32) (low : 0 < size.toNat) (short : size.toNat ≤ 25)
    (modifier : hdr.ricemod.toNat < 8) (settles : (dec.riceParams hdr).Settles size.toNat)
    (count : Nat) (small : Small r) : ChannelFits dec count size hdr r := by
  have bytes := dec.riceParams_ofBytes modifier
  have word : BitVec.ofNat 32 size.toNat = size := by
    rw [BitVec.ofNat_toNat, BitVec.setWidth_eq]
  refine ⟨limit, ?_, .inl low⟩
  rw [seek_of_small small]
  have rounds := @Tame.rounds _ _ r.buf bytes short settles count (8 * r.pos + r.bit.toNat)
  rw [word] at rounds
  intro round mem
  have tame := rounds round mem
  have narrow := tame.k_le bytes
  refine ⟨entropyFits_of_lt low (by omega) _, fun run => entropyFits_of_lt (by decide) ?_ _⟩
  have runs := tame.zeroRunK_le bytes short settles
  rw [word] at runs
  exact Nat.lt_of_le_of_lt (runs run) (by decide)

end Settled

end Checked

/-- A condition on the configuration and the headers of a frame alone. -/
def Plan.Settles (dec : AlacDecoder) : Plan → Prop
  | .nothing => True
  | .mono hdr r => hdr.isNotCompressed = 0 →
      dec.riceKModifier.toNat < 32 ∧ 0 < (monoSize dec hdr).toNat ∧
        (dec.riceParams (monoPredictor r).1).Settles (monoSize dec hdr).toNat
  | .stereo hdr r => hdr.isNotCompressed = 0 →
      dec.riceKModifier.toNat < 32 ∧
        ((dec.riceParams (stereoPredictors r).1.1).Settles (stereoSize dec hdr).toNat ∧
          (dec.riceParams (stereoPredictors r).1.2).Settles (stereoSize dec hdr).toNat) ∧
        MixFits ((r.readbits 8).1.setWidth 8) (((r.readbits 8).2.readbits 8).1.setWidth 8)

open Checked

theorem shiftsFit_of_settles {dec : AlacDecoder} (ready : Ready dec) (input : List UInt8)
    (room : Nat) (settles : (dec.plan input room).Settles dec) :
    (dec.plan input room).ShiftsFit dec := by
  rcases plan_cases dec input room with none | ⟨passed, ⟨-, plan⟩ | ⟨-, plan⟩⟩
  · rw [none]
    trivial
  · rw [plan] at settles ⊢
    have short := toNat_monoSize_le ready (whole_of_verdict passed)
    intro compressed
    obtain ⟨limit, low, settles⟩ := settles compressed
    exact channelFits_of_settles limit low (by omega) (ricemod_lt _) settles _
      (small_monoLow _ (small_predictorHeader _))
  · rw [plan] at settles ⊢
    have short := toNat_monoSize_le ready (whole_of_verdict passed)
    have size := toNat_stereoSize ready (whole_of_verdict passed)
    intro compressed low a
    obtain ⟨limit, ⟨settlesA, settlesB⟩, mix⟩ := settles compressed
    have start : Small low.2 := small_stereoLow _ (small_predictorHeader _)
    refine ⟨⟨?_, ?_⟩, mix⟩
    · exact channelFits_of_settles limit (by omega) (by omega) (ricemod_lt _) settlesA _ start
    · exact channelFits_of_settles limit (by omega) (by omega) (ricemod_lt _) settlesB _
        (small_channelSamples _ _ _ _ start)

/-- The shifts of a frame are in range for a decoder. -/
def AlacDecoder.ShiftsFit (dec : AlacDecoder) (input : List UInt8) (room : Nat) : Prop :=
  (dec.plan input room).ShiftsFit dec

/-- What a frame needs depends on the settings only. -/
theorem shiftsFit_congr {dec dec' : AlacDecoder} (same : dec'.blank = dec.blank)
    (input : List UInt8) (room : Nat) : dec'.ShiftsFit input room = dec.ShiftsFit input room := by
  have fits := congrArg (fun d : AlacDecoder => d.ShiftsFit input room) same
  exact fits

section Settings

variable {dec : AlacDecoder} (set : Ready dec ∨ dec.maxSamplesPerFrame = 0)
include set

/-- A decoder that `set_info` has left, after any frames, decodes a frame in the same way with the
checks if the shifts are in range, and panics with them if they are not. -/
theorem checked_decodeFrame (input output : List UInt8) :
    (dec.ShiftsFit input output.length →
        Checked.decodeFrame dec input output = dec.decodeFrame input output) ∧
      (¬ dec.ShiftsFit input output.length →
        (Checked.decodeFrame dec input output).2.2 = none) := by
  rcases set with ready | disabled
  · have body := decodeBody_guarded ready input output
    refine ⟨fun fits => ?_, body.2⟩
    rw [Checked.decodeFrame, AlacDecoder.decodeFrame, body.1 fits]
  · have nothing := AlacDecoder.plan_disabled disabled input output.length
    rw [AlacDecoder.ShiftsFit, nothing]
    refine ⟨fun _ => ?_, fun misses => absurd trivial misses⟩
    rw [Checked.decodeFrame, AlacDecoder.decodeFrame, Checked.decodeBody, Codec.decodeBody,
      view_bind, view_bind, if_pos (.inl disabled), if_pos (.inl disabled)]

/-- As long as the shifts are in range, the checks do not show in the decoder. -/
theorem checked_after (frames : List (List UInt8 × List UInt8))
    (fits : ∀ frame ∈ frames, dec.ShiftsFit frame.1 frame.2.length) :
    Checked.after dec frames = dec.after frames := by
  induction frames generalizing dec with
  | nil => rfl
  | cons frame frames ih =>
    rw [List.forall_mem_cons] at fits
    have first := (checked_decodeFrame set frame.1 frame.2).1 fits.1
    have same := blank_decodeFrame dec frame.1 frame.2
    have set' : Ready (dec.decodeFrame frame.1 frame.2).1 ∨
        (dec.decodeFrame frame.1 frame.2).1.maxSamplesPerFrame = 0 :=
      set.imp (fun ready => ready.congr same)
        fun disabled => (AlacDecoder.maxSamplesPerFrame_congr same).trans disabled
    have rest := ih set' fun later mem => by
      rw [shiftsFit_congr same]
      exact fits.2 later mem
    show Checked.after (Checked.decodeFrame dec frame.1 frame.2).1 frames = _
    rw [first]
    exact rest

end Settings

/-- A usual configuration for frames of two 16-bit samples. -/
def usualConfig (channels : UInt8) : List UInt8 :=
  List.replicate 24 0 ++ [0, 0, 0, 2, 0, 16, 40, 10, 14, channels] ++ List.replicate 14 0

/-- A stereo frame with the interlacing shift 32 and the left weight 1. -/
def wideShiftFrame : List UInt8 := [32, 0, 0, 64, 2, 1, 0, 1, 0]

end Shairplay.Codec
