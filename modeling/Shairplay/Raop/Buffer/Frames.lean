import Shairplay.Raop.Buffer.Alac
import Shairplay.Raop.Buffer.Calls

/-!
# Frames are whole

Every slice that `dequeue` returns has samples, the same number for each channel, and fits in
a slot. For a decoded frame this comes from the codec. For silence it comes from the last
decoded frame: the size that `build` guesses for `L16` need not be one of whole frames, but
it is replaced before anything can be taken.
-/

namespace Shairplay.Raop

open Lib Serial Machine
open Shairplay.Codec (AlacDecoder)

/-- A number of samples that a slot holds: some, and the same for each channel. -/
structure Whole (channels capacity length : Nat) : Prop where
  positive : 0 < length
  divides : channels ∣ length
  fits : length ≤ capacity

theorem length_chunkPairs : (bytes : List UInt8) → (chunkPairs bytes).length = bytes.length / 2
  | [] => rfl
  | [_] => by simp [chunkPairs]
  | x :: y :: rest => by
    rw [chunkPairs, List.length_cons, length_chunkPairs rest, List.length_cons, List.length_cons]
    omega

namespace Codec

def channels {δ : Type} : Codec δ → Nat
  | .alac config _ => config.numChannels.toNat
  | .pcm config => config.numChannels.toNat

/-- A codec as `build` makes it for slots of the given size, and as packets leave it. Silence
is a full frame for `AppleLossless`. -/
def Sized (capacity silence : Nat) : Codec AlacDecoder → Prop
  | .alac config dec =>
    config.frameLength ≠ 0 ∧ config.numChannels ≠ 0 ∧ config.Serves dec ∧
      capacity = config.frameSamples ∧ silence = capacity
  | .pcm config => config.numChannels ≠ 0 ∧ capacity = (raopPacketLen - 12) / 2

variable {capacity silence : Nat} {payload : List UInt8} {codec : Codec AlacDecoder}

/-- Decoding keeps the codec, and what it yields is whole. -/
theorem Sized.decode (sized : codec.Sized capacity silence)
    (small : payload.length ≤ raopPacketLen - 12) :
    (codec.decode capacity capacity payload).1.Sized capacity silence ∧
      (codec.decode capacity capacity payload).1.channels = codec.channels ∧
      ∀ samples, (codec.decode capacity capacity payload).2 = .samples samples →
        Whole codec.channels capacity samples.length := by
  cases codec with
  | alac config dec =>
    obtain ⟨frames, channels, serves, rfl, rfl⟩ := sized
    have next := serves.decodeFrame payload (List.replicate (config.frameSamples * 2) 0)
    have written := serves.writes frames payload
      (List.length_replicate (n := config.frameSamples * 2) (a := 0))
    simp only [Codec.decode]
    split
    · exact ⟨⟨frames, channels, next, rfl, rfl⟩, rfl, fun samples h => by cases h⟩
    · rename_i some
      refine ⟨⟨frames, channels, next, rfl, rfl⟩, rfl, ?_⟩
      intro samples decoded
      cases decoded
      rcases written with nothing | ⟨-, -, m, positive, inside, result, length⟩
      · exact absurd nothing some
      · have count : m * config.numChannels.toNat ≤ config.frameSamples :=
          Nat.mul_le_mul_right _ inside
        rw [List.length_replicate] at length
        rw [result, List.length_take, List.length_map, length_chunkPairs, List.length_take,
          length, Option.getD_some, show min (min _ _) _ = m * config.numChannels.toNat * 2 by
            omega, Nat.mul_div_cancel _ (by decide), Nat.min_eq_right count]
        refine ⟨Nat.mul_pos positive ?_, Nat.dvd_mul_left _ _, count⟩
        exact Nat.pos_of_ne_zero fun zero => channels (UInt8.toNat_inj.mp zero)
  | pcm config =>
    obtain ⟨channels, rfl⟩ := sized
    simp only [Codec.decode]
    split
    · exact ⟨⟨channels, rfl⟩, rfl, fun samples h => by cases h⟩
    · rename_i accepted
      split
      · exact ⟨⟨channels, rfl⟩, rfl, fun samples h => by cases h⟩
      · rename_i nonempty
        refine ⟨⟨channels, rfl⟩, rfl, ?_⟩
        intro samples decoded
        cases decoded
        rw [not_or, not_not] at accepted
        -- a packet has at most as many samples as a slot
        have all : payload.length / 2 ≤ (raopPacketLen - 12) / 2 := Nat.div_le_div_right small
        have whole : config.numChannels.toNat * 2 ∣ payload.length :=
          Nat.dvd_of_mod_eq_zero accepted.2
        rw [List.length_take, List.length_map, length_chunkPairs, Nat.min_eq_right all]
          at nonempty ⊢
        refine ⟨Nat.pos_of_ne_zero nonempty, ?_, all⟩
        exact (Nat.dvd_div_iff_mul_dvd (dvd_of_mul_left_dvd whole)).mpr (Nat.mul_comm 2 _ ▸ whole)

/-- The silence that follows an accepted packet. -/
theorem Sized.nextSilence (sized : codec.Sized capacity silence) {samples : List Sample}
    (whole : Whole codec.channels capacity samples.length) :
    codec.Sized capacity (codec.nextSilence silence samples) ∧
      Whole codec.channels capacity (codec.nextSilence silence samples) := by
  cases codec with
  | alac config dec =>
    refine ⟨sized, ?_⟩
    obtain ⟨frames, channels, -, rfl, rfl⟩ := sized
    refine ⟨Nat.mul_pos ?_ ?_, Nat.dvd_mul_left _ _, Nat.le_refl _⟩
    · exact Nat.pos_of_ne_zero fun zero => frames (UInt32.toNat_inj.mp zero)
    · exact Nat.pos_of_ne_zero fun zero => channels (UInt8.toNat_inj.mp zero)
  | pcm config => exact ⟨sized, whole⟩

end Codec

namespace RaopBuffer

variable {channels capacity : Nat} {b b' : RaopBuffer AlacDecoder}

/-- All frames that a buffer holds or would hand out are whole. -/
structure Sound (channels capacity : Nat) (b : RaopBuffer AlacDecoder) : Prop where
  slots : b.frameCapacity = capacity
  codec : b.codec.Sized capacity b.silenceSamples
  format : b.codec.channels = channels
  room : ∀ i, (b.entryAt i).audioBuffer.length = capacity
  stored : ∀ i, (b.entryAt i).available = true →
    Whole channels capacity (b.entryAt i).audioBufferLen
  silence : b.isEmpty = false → Whole channels capacity b.silenceSamples

theorem numChannels_of_parseL16 {encoding : List Char} {config : PcmConfig}
    (parsed : parseL16 encoding = some config) : config.numChannels ≠ 0 := by
  have positive {n : Nat} (small : n < 2 ^ 8) (nonzero : n ≠ 0) : UInt8.ofNat n ≠ 0 := by
    intro zero
    have same := congrArg UInt8.toNat zero
    rw [UInt8.toNat_ofNat', Nat.mod_eq_of_lt small] at same
    exact nonzero same
  unfold parseL16 at parsed
  simp only [Option.bind_eq_bind, Option.bind_eq_some_iff] at parsed
  obtain ⟨_, _, parsed⟩ := parsed
  split at parsed
  · cases parsed
  · obtain ⟨_, _, parsed⟩ := Option.bind_eq_some_iff.mp parsed
    obtain ⟨_, _, parsed⟩ := Option.bind_eq_some_iff.mp parsed
    split at parsed
    · obtain ⟨channels, number, checked⟩ := Option.bind_eq_some_iff.mp parsed
      split at checked
      · cases checked
      · rename_i valid
        simp only [not_or] at valid
        cases checked
        exact positive (Str.parseUnsigned_lt number) valid.2.2
    · obtain ⟨channels, one, checked⟩ := Option.bind_eq_some_iff.mp parsed
      cases one
      split at checked
      · cases checked
      · cases checked
        exact positive (by decide) (by decide)

/-- What `build` makes of the attributes. -/
theorem sized_buildCodec {rtpmap fmtp : String} {codec : Codec AlacDecoder}
    {capacity silence : Nat} (built : buildCodec rtpmap fmtp = some (codec, capacity, silence)) :
    codec.Sized capacity silence := by
  unfold buildCodec at built
  obtain ⟨kind, parsed, made⟩ := Option.bind_eq_some_iff.mp built
  cases kind with
  | pcm config =>
    cases made
    refine ⟨?_, rfl⟩
    unfold parseCodec at parsed
    simp only [Option.bind_eq_bind, Option.bind_eq_some_iff] at parsed
    obtain ⟨_, _, _, _, _, _, parsed⟩ := parsed
    split at parsed
    · cases parsed
    · obtain ⟨_, _, parsed⟩ := Option.bind_eq_some_iff.mp parsed
      split at parsed
      · cases parsed
      · obtain ⟨_, l16, same⟩ := Option.map_eq_some_iff.mp parsed
        cases same
        exact numChannels_of_parseL16 l16
  | alac =>
    obtain ⟨config, fields, made⟩ := Option.bind_eq_some_iff.mp made
    cases made
    obtain ⟨_, _, _, announces⟩ := AlacConfig.announces_of_parseFmtp fields
    exact ⟨announces.frames_ne, announces.channels_ne, rfl, rfl, rfl⟩

theorem sound_build {rtpmap fmtp : String} {aes : Option AesSession}
    (built : build rtpmap fmtp aes = some b) :
    Sound b.format.numChannels.toNat b.frameCapacity b := by
  obtain ⟨⟨codec, capacity, silence⟩, made, same⟩ := Option.bind_eq_some_iff.mp built
  cases same
  refine ⟨rfl, sized_buildCodec made, ?_, ?_, ?_, fun nonempty => by cases nonempty⟩
  · cases codec <;> rfl
  · intro i
    simp [fresh, entryAt]
  · intro i available
    simp [fresh, entryAt] at available

theorem flush_aes {δ : Type} (b : RaopBuffer δ) (nextSeq : Int) :
    (b.flush nextSeq).aes = b.aes := by
  unfold flush
  split <;> rfl

namespace Sound

variable (h : Sound channels capacity b)
include h

theorem flush (nextSeq : Int) : Sound channels capacity (b.flush nextSeq) := by
  have same : (b.flush nextSeq).frameCapacity = b.frameCapacity ∧
      (b.flush nextSeq).codec = b.codec ∧
      (b.flush nextSeq).silenceSamples = b.silenceSamples ∧
      ((b.flush nextSeq).isEmpty = false → b.isEmpty = false) := by
    unfold RaopBuffer.flush
    split
    · exact ⟨rfl, rfl, rfl, fun nonempty => by cases nonempty⟩
    · exact ⟨rfl, rfl, rfl, id⟩
  obtain ⟨slots, codec, silence, nonempty⟩ := same
  refine ⟨slots.trans h.slots, ?_, codec ▸ h.format, ?_, ?_, ?_⟩
  · rw [codec, silence]
    exact h.codec
  · intro i
    rw [entryAt_flush]
    exact h.room i
  · intro i available
    rw [flush_available] at available
    cases available
  · intro again
    rw [silence]
    exact h.silence (nonempty again)

/-- Replacing a slot by a whole frame or by none, whatever the codec has become. -/
theorem setEntry (i : Fin raopBufferLength) {e : BufferEntry}
    (room : e.audioBuffer.length = capacity)
    (stored : e.available = true → Whole channels capacity e.audioBufferLen) :
    Sound channels capacity (b.setEntry i e) := by
  refine ⟨h.slots, h.codec, h.format, ?_, ?_, h.silence⟩
  · intro j
    rw [entryAt_setEntry]
    split
    · exact room
    · exact h.room j
  · intro j available
    rw [entryAt_setEntry] at available ⊢
    split
    · rename_i same
      rw [if_pos same] at available
      exact stored available
    · rename_i other
      rw [if_neg other] at available
      exact h.stored j available

theorem clear (i : Fin raopBufferLength) :
    Sound channels capacity (b.setEntry i (b.entryAt i).clear) :=
  h.setEntry i (h.room i) fun available => by cases available

theorem frameIn (nonempty : b.isEmpty = false) (i : Fin raopBufferLength) :
    Whole channels capacity (b.frameIn (b.entryAt i)).length := by
  unfold RaopBuffer.frameIn
  split
  · rename_i available
    have whole := h.stored i available
    rw [List.length_take, h.room i, Nat.min_eq_left whole.fits]
    exact whole
  · have whole := h.silence nonempty
    rw [List.length_replicate, h.slots, Nat.min_eq_left whole.fits]
    exact whole

theorem dequeue (noResend : Bool) :
    Sound channels capacity (b.dequeue noResend).1 ∧
      ∀ frame, (b.dequeue noResend).2 = some frame → Whole channels capacity frame.length := by
  by_cases waits : b.Waits noResend
  · rw [dequeue_waits waits]
    exact ⟨h, fun frame none => by cases none⟩
  · obtain ⟨e, free, length, taken⟩ := dequeue_takes waits
    have nonempty : b.isEmpty = false := by
      rw [Waits, not_or, not_or, Bool.not_eq_true] at waits
      exact waits.1.1
    have whole := h.silence nonempty
    rw [h.slots, Nat.min_eq_left whole.fits, h.room] at length
    rw [taken]
    have freed := h.setEntry (slot b.firstSeqnum) (length whole.fits) fun available => by
      rw [free] at available
      cases available
    refine ⟨⟨freed.slots, freed.codec, freed.format, freed.room, freed.stored, freed.silence⟩, ?_⟩
    · intro frame same
      cases same
      exact h.frameIn nonempty _

theorem store (data : List UInt8) (seqnum : BitVec 16)
    {samples : List Sample} (whole : Whole channels capacity samples.length) :
    Sound channels capacity (b.store data seqnum samples) := by
  apply h.setEntry
  · rw [List.length_append, List.length_drop, h.room, Nat.add_sub_cancel' whole.fits]
  · intro _
    exact whole

theorem updateWindow (silence : Whole channels capacity b.silenceSamples) (seqnum : BitVec 16) :
    Sound channels capacity (b.updateWindow seqnum) := by
  unfold RaopBuffer.updateWindow
  dsimp only
  split <;> split <;>
    exact ⟨h.slots, h.codec, h.format, h.room, h.stored, fun _ => silence⟩

/-- A decoded packet, and the codec and the silence that it leaves behind. -/
theorem accepting (data : List UInt8) (seqnum : BitVec 16) {codec : Codec AlacDecoder}
    {samples : List Sample} (sized : codec.Sized capacity b.silenceSamples)
    (format : codec.channels = channels) (whole : Whole channels capacity samples.length) :
    Sound channels capacity (b.accepting data seqnum codec samples) := by
  subst format
  obtain ⟨next, silence⟩ := sized.nextSilence whole
  have replaced : Sound codec.channels capacity
      { b with codec, silenceSamples := codec.nextSilence b.silenceSamples samples } :=
    ⟨h.slots, next, rfl, h.room, h.stored, fun _ => silence⟩
  exact ((replaced.clear (slot seqnum)).store data seqnum whole).updateWindow silence seqnum

variable {cbc : AesSession → List UInt8 → List UInt8}

/-- Decryption in the session of the buffer is in place. -/
def InPlace (cbc : AesSession → List UInt8 → List UInt8) (aes : Option AesSession) : Prop :=
  ∀ session, aes = some session → ∀ block, (cbc session block).length = block.length

omit h in
theorem length_decryptPayload (preserves : InPlace cbc b.aes) (payload : List UInt8) :
    (b.decryptPayload cbc payload).length = payload.length := by
  unfold decryptPayload
  dsimp only
  split
  · rename_i session encrypted
    split
    · rw [List.length_append, preserves session encrypted, List.length_take, List.length_drop]
      omega
    · rfl
  · rfl

theorem queued (preserves : InPlace cbc b.aes) {data : List UInt8}
    (size : data.length ≤ raopPacketLen) {seqnum : BitVec 16} {code : Int}
    (queued : Queued cbc b data seqnum b' code) : Sound channels capacity b' := by
  have small : (b.decryptPayload cbc (data.drop 12)).length ≤ raopPacketLen - 12 := by
    rw [length_decryptPayload preserves, List.length_drop]
    omega
  obtain ⟨sized, format, whole⟩ := h.codec.decode small
  have same : b.codec.decode capacity capacity (b.decryptPayload cbc (data.drop 12)) =
      b.decodePacket cbc data seqnum := by
    rw [decodePacket, h.slots, h.room]
  rw [same] at sized format whole
  rw [h.format] at format whole
  cases queued with
  | duplicate => exact h
  | rejected _ decoded _ =>
    rw [decoded] at sized format
    have cleared := h.clear (slot seqnum)
    exact ⟨cleared.slots, sized, format, cleared.room, cleared.stored, cleared.silence⟩
  | accepted decoded =>
    rw [decoded] at sized format whole
    exact h.accepting data seqnum sized format (whole _ rfl)

theorem offered (preserves : InPlace cbc b.aes) {data : List UInt8} {useSeqnum : Bool} {code : Int}
    (offered : Offered cbc b data useSeqnum b' code) : Sound channels capacity b' := by
  cases offered with
  | malformed => exact h
  | stale => exact h
  | near size _ _ queued => exact h.queued preserves size.2 queued
  | resync size _ _ queued =>
    refine (h.flush _).queued ?_ size.2 queued
    rw [flush_aes]
    exact preserves

/-- A call keeps the frames whole, and hands out a whole one if it hands one out. -/
theorem call (preserves : InPlace cbc b.aes) (c : Call) :
    Sound channels capacity (b.call cbc c).1 ∧
      ∀ frame, .dequeued (some frame) ∈ (b.call cbc c).2 →
        Whole channels capacity frame.length := by
  cases c with
  | queue data useSeqnum =>
    refine ⟨h.offered preserves (queue_offered cbc b data useSeqnum), ?_⟩
    intro frame returned
    simp [RaopBuffer.call] at returned
  | dequeue noResend =>
    refine ⟨(h.dequeue noResend).1, ?_⟩
    intro frame returned
    rw [RaopBuffer.call, List.mem_singleton, Reply.dequeued.injEq] at returned
    exact (h.dequeue noResend).2 frame returned.symm
  | flush nextSeq =>
    refine ⟨h.flush nextSeq, ?_⟩
    intro frame returned
    cases returned

end Sound

/-- Every frame that is handed out has samples, the same number for each channel, and no more
than a slot holds. Decryption is in place, so it keeps the length. -/
theorem dequeued_whole {cbc : AesSession → List UInt8 → List UInt8}
    (preserves : ∀ aes block, (cbc aes block).length = block.length) {rtpmap fmtp : String}
    {aes : Option AesSession} (built : build rtpmap fmtp aes = some b) (calls : List Call)
    {frame : List Sample} (returned : .dequeued (some frame) ∈ (run (call cbc) b calls).2) :
    0 < frame.length ∧ b.format.numChannels.toNat ∣ frame.length ∧
      frame.length ≤ b.frameCapacity := by
  let Kept (s : RaopBuffer AlacDecoder) (log : List Reply) : Prop :=
    Sound b.format.numChannels.toNat b.frameCapacity s ∧
      ∀ frame, .dequeued (some frame) ∈ log →
        Whole b.format.numChannels.toNat b.frameCapacity frame.length
  have keeps (s log) (c : Call) (h : Kept s log) :
      Kept (s.call cbc c).1 (log ++ (s.call cbc c).2) := by
    obtain ⟨sound, whole⟩ := h.1.call (fun session _ => preserves session) c
    refine ⟨sound, ?_⟩
    intro frame found
    rcases List.mem_append.mp found with earlier | now
    · exact h.2 frame earlier
    · exact whole frame now
  have start : Kept b [] := ⟨sound_build built, by simp⟩
  have whole := (run_history keeps start calls).2 frame returned
  exact ⟨whole.positive, whole.divides, whole.fits⟩

/-- Silence in place of packet 2, as long as the frame before it. -/
theorem dequeued_whole_silence :
    0 < [(0 : Sample), 0].length ∧ 2 ∣ [(0 : Sample), 0].length ∧
      [(0 : Sample), 0].length ≤ 16378 :=
  @dequeued_whole (fresh none (.pcm ⟨2, 44100⟩) 16378 704) (fun _ block => block)
    (fun _ _ => rfl) "96 L16/44100/2" "" none rfl
    [.queue (stereoPacket 0 1) true, .queue (stereoPacket 0 3) true, .dequeue true,
      .dequeue true] [0, 0] (by decide +kernel)

end RaopBuffer

end Shairplay.Raop
