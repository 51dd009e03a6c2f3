import Shairplay.Codec.Resample
import Shairplay.Lib.Deframer
import Shairplay.Lib.Machine

/-!
# The streaming resampler

The inner resampler takes one buffer for each channel, all of a fixed length. Samples arrive
interleaved and in blocks of any size, so they are collected until a chunk is full.
-/

namespace Shairplay.Codec

open Lib Machine

/-- The inner resampler and the adapter for its input, which are not of this repository. The
resampler has a state, and a result for an input of one chunk. An adapter is known by what is read
from it: the frames of each channel. -/
class Resampler (σ : Type) where
  new : (fromRate toRate chunkSize channels : Nat) → Option σ
  /-- `SequentialSliceOfVecs::new`. -/
  sequentialSlice : (buffers : List (List ℚ)) → (channels frames : Nat) → Option (List (List ℚ))
  process : σ → List (List ℚ) → σ × Option (List ℚ)

/-- A resampler with the samples that do not fill a chunk yet. There is a buffer for each
channel. -/
structure StreamResampler (σ : Type) where
  resampler : σ
  channels : Nat
  chunkSize : Nat
  pending : List ℚ
  deinterleaveScratch : List (List ℚ)
  channels_pos : 0 < channels
  chunkSize_pos : 0 < chunkSize
  length_scratch : deinterleaveScratch.length = channels

namespace StreamResampler

variable {σ : Type}

def new [Resampler σ] (fromRate toRate channels : Nat) : Option (StreamResampler σ) :=
  if given : fromRate = toRate ∨ channels = 0 then none
  else
    (Resampler.new fromRate toRate 128 channels).map fun resampler =>
      { resampler, channels, chunkSize := 128, pending := [],
        deinterleaveScratch := List.replicate channels [],
        channels_pos := Nat.pos_of_ne_zero (not_or.mp given).2,
        chunkSize_pos := Nat.succ_pos 127,
        length_scratch := List.length_replicate .. }

def samplesPerChunk (r : StreamResampler σ) : Nat := r.chunkSize * r.channels

theorem samplesPerChunk_pos (r : StreamResampler σ) : 0 < r.samplesPerChunk :=
  Nat.mul_pos r.chunkSize_pos r.channels_pos

/-- A frame goes to the ends of the buffers. -/
def pushFrame (scratch : List (List ℚ)) (frame : List ℚ) : List (List ℚ) :=
  scratch.mapIdx fun ch buffer => buffer ++ frame[ch]?.toList

/-- The buffers after they were cleared and filled with the frames of a chunk. -/
def deinterleave (r : StreamResampler σ) (chunk : List ℚ) : List (List ℚ) :=
  (chunksExact r.channels chunk).foldl pushFrame (r.deinterleaveScratch.map fun _ => [])

theorem length_foldl_pushFrame (frames scratch : List (List ℚ)) :
    (frames.foldl pushFrame scratch).length = scratch.length := by
  induction frames generalizing scratch with
  | nil => rfl
  | cons frame frames ih => rw [List.foldl_cons, ih, pushFrame, List.length_mapIdx]

theorem length_deinterleave (r : StreamResampler σ) (chunk : List ℚ) :
    (r.deinterleave chunk).length = r.channels := by
  rw [deinterleave, length_foldl_pushFrame, List.length_map, r.length_scratch]

def fill (r : StreamResampler σ) (chunk : List ℚ) : StreamResampler σ :=
  { r with
    deinterleaveScratch := r.deinterleave chunk, length_scratch := r.length_deinterleave chunk }

/-- Give full chunks to the inner resampler, up to the first failure. -/
def processLoop [Resampler σ] (r : StreamResampler σ) (consumed : Nat) (output : List ℚ) :
    StreamResampler σ × Nat × List ℚ :=
  if r.samplesPerChunk ≤ r.pending.length - consumed then
    let filled := r.fill ((r.pending.drop consumed).take r.samplesPerChunk)
    match Resampler.sequentialSlice σ filled.deinterleaveScratch filled.channels
        filled.chunkSize with
    | none => (filled, consumed, output)
    | some input =>
      match Resampler.process filled.resampler input with
      | (resampler, none) => ({ filled with resampler }, consumed, output)
      | (resampler, some data) =>
        processLoop { filled with resampler } (consumed + r.samplesPerChunk) (output ++ data)
  else (r, consumed, output)
termination_by r.pending.length - consumed
decreasing_by
  have := r.samplesPerChunk_pos
  simp only [fill]
  omega

/-- What has been consumed is removed at the end. -/
def finish : StreamResampler σ × Nat × List ℚ → StreamResampler σ × List ℚ
  | (r, consumed, output) => ({ r with pending := r.pending.drop consumed }, output)

/-- Resample a block of samples. -/
def process [Resampler σ] (r : StreamResampler σ) (interleaved : List ℚ) :
    StreamResampler σ × List ℚ :=
  finish (processLoop { r with pending := r.pending ++ interleaved } 0 [])

end StreamResampler

/-- The buffers of a chunk: each channel has every sample at an index that is its own modulo the
number of channels. -/
def channelBuffers (channels chunkSize : Nat) (chunk : List ℚ) : List (List ℚ) :=
  (List.range channels).map fun c =>
    (List.range chunkSize).map fun f => chunk.getD (f * channels + c) 0

def channelChunks (channels chunkSize : Nat) (stream : List ℚ) : List (List (List ℚ)) :=
  (List.range (stream.length / (chunkSize * channels))).map fun k =>
    (List.range channels).map fun c =>
      (List.range chunkSize).map fun f =>
        stream.getD (k * (chunkSize * channels) + (f * channels + c)) 0

/-- The inner resampler gives a result for every chunk of the right size. -/
def NeverFails (σ : Type) [Resampler σ] (channels chunkSize : Nat) : Prop :=
  ∀ (state : σ) (input : List (List ℚ)), input.length = channels →
    (∀ buffer ∈ input, buffer.length = chunkSize) → (Resampler.process state input).2.isSome

def feed {σ : Type} [Resampler σ] (state : σ) (input : List (List ℚ)) : σ × List ℚ :=
  ((Resampler.process state input).1, (Resampler.process state input).2.getD [])

theorem mem_channelBuffers {channels chunkSize : Nat} {chunk buffer : List ℚ}
    (mem : buffer ∈ channelBuffers channels chunkSize chunk) : buffer.length = chunkSize := by
  obtain ⟨c, _, rfl⟩ := List.mem_map.mp mem
  rw [List.length_map, List.length_range]

@[simp] theorem length_channelBuffers (channels chunkSize : Nat) (chunk : List ℚ) :
    (channelBuffers channels chunkSize chunk).length = channels := by
  rw [channelBuffers, List.length_map, List.length_range]

/-- Where a sample of a frame is in its chunk. -/
theorem sample_lt {channels chunkSize c f : Nat} (inChannels : c < channels)
    (inChunk : f < chunkSize) : f * channels + c < chunkSize * channels :=
  calc f * channels + c < f * channels + channels := Nat.add_lt_add_left inChannels _
    _ = (f + 1) * channels := (Nat.succ_mul f channels).symm
    _ ≤ chunkSize * channels := Nat.mul_le_mul_right channels inChunk

theorem channelChunks_eq (channels chunkSize : Nat) (stream : List ℚ) :
    channelChunks channels chunkSize stream =
      ((List.range (stream.length / (chunkSize * channels))).map fun k =>
        (stream.drop (k * (chunkSize * channels))).take (chunkSize * channels)).map
          (channelBuffers channels chunkSize) := by
  rw [List.map_map]
  refine List.map_congr_left fun k _ => List.map_congr_left fun c inChannels =>
    List.map_congr_left fun f inChunk => ?_
  have inside := sample_lt (List.mem_range.mp inChannels) (List.mem_range.mp inChunk)
  rw [List.getD_eq_getElem?_getD, List.getD_eq_getElem?_getD, List.getElem?_take_of_lt inside,
    List.getElem?_drop]

/-- The documented behaviour of the adapter: buffers that are long enough, and enough of them, are
accepted. They may be longer than needed, and then the rest is not read. -/
def SlicesBuffers (σ : Type) [Resampler σ] : Prop :=
  ∀ (buffers : List (List ℚ)) (channels frames : Nat), channels ≤ buffers.length →
    (∀ buffer ∈ buffers.take channels, frames ≤ buffer.length) →
    Resampler.sequentialSlice σ buffers channels frames =
      some ((buffers.take channels).map fun buffer => buffer.take frames)

/-- Buffers of the right size are read as they are. -/
theorem SlicesBuffers.channelBuffers {σ : Type} [Resampler σ] (slices : SlicesBuffers σ)
    (channels chunkSize : Nat) (chunk : List ℚ) :
    Resampler.sequentialSlice σ (channelBuffers channels chunkSize chunk) channels chunkSize =
      some (channelBuffers channels chunkSize chunk) := by
  have whole : (Codec.channelBuffers channels chunkSize chunk).take channels =
      Codec.channelBuffers channels chunkSize chunk :=
    List.take_of_length_le (Nat.le_of_eq (length_channelBuffers ..))
  have taken : (Codec.channelBuffers channels chunkSize chunk).map
      (fun buffer => buffer.take chunkSize) = Codec.channelBuffers channels chunkSize chunk := by
    refine (List.map_congr_left fun buffer mem => ?_).trans (List.map_id _)
    exact List.take_of_length_le (Nat.le_of_eq (mem_channelBuffers mem))
  have accepted := slices (Codec.channelBuffers channels chunkSize chunk) channels chunkSize
    (Nat.le_of_eq (length_channelBuffers ..).symm) fun buffer mem =>
      Nat.le_of_eq (mem_channelBuffers (List.mem_of_mem_take mem)).symm
  rw [accepted, whole, taken]

namespace StreamResampler

variable {σ : Type}

theorem foldl_pushFrame (frames scratch : List (List ℚ)) :
    frames.foldl pushFrame scratch =
      scratch.mapIdx fun ch buffer => buffer ++ frames.flatMap fun frame => frame[ch]?.toList := by
  induction frames generalizing scratch with
  | nil => exact List.ext_getElem (by simp) (by simp)
  | cons frame frames ih =>
    rw [List.foldl_cons, ih, pushFrame, List.mapIdx_mapIdx]
    simp [Function.comp_def, List.append_assoc]

/-- A frame holds one sample of each channel. -/
theorem deinterleave_eq (r : StreamResampler σ) {chunk : List ℚ}
    (full : chunk.length = r.samplesPerChunk) :
    r.deinterleave chunk = channelBuffers r.channels r.chunkSize chunk := by
  have frames : chunk.length / r.channels = r.chunkSize := by
    rw [full, samplesPerChunk, Nat.mul_div_cancel _ r.channels_pos]
  rw [deinterleave, foldl_pushFrame, chunksExact, frames]
  apply List.ext_getElem
  · rw [List.length_mapIdx, List.length_map, r.length_scratch, length_channelBuffers]
  · intro c _ inChannels
    rw [length_channelBuffers] at inChannels
    simp only [List.getElem_mapIdx, List.getElem_map, List.nil_append, channelBuffers,
      List.getElem_range, List.flatMap_map]
    rw [List.map_eq_flatMap]
    refine List.flatMap_congr fun f mem => ?_
    have inside := sample_lt inChannels (List.mem_range.mp mem)
    rw [List.getElem?_take_of_lt inChannels, List.getElem?_drop, List.getD_eq_getElem?_getD,
      List.getElem?_eq_getElem (by rw [full]; exact inside)]
    rfl

section Loop

variable [Resampler σ] {r : StreamResampler σ} {consumed : Nat} {output : List ℚ}

theorem processLoop_done (short : r.pending.length - consumed < r.samplesPerChunk) :
    r.processLoop consumed output = (r, consumed, output) := by
  rw [processLoop, if_neg (Nat.not_le.mpr short)]

def afterChunk (r : StreamResampler σ) (chunk : List ℚ) : StreamResampler σ :=
  { r.fill chunk with
    resampler := (feed r.resampler (channelBuffers r.channels r.chunkSize chunk)).1 }

/-- A round of the loop gives one chunk to the inner resampler. -/
theorem processLoop_chunk (slices : SlicesBuffers σ) (never : NeverFails σ r.channels r.chunkSize)
    (full : r.samplesPerChunk ≤ r.pending.length - consumed) {chunk : List ℚ}
    (cut : (r.pending.drop consumed).take r.samplesPerChunk = chunk) :
    r.processLoop consumed output = (r.afterChunk chunk).processLoop (consumed + r.samplesPerChunk)
        (output ++ (feed r.resampler (channelBuffers r.channels r.chunkSize chunk)).2) := by
  have length : chunk.length = r.samplesPerChunk := by
    rw [← cut, List.length_take, List.length_drop]
    omega
  have succeeds := never r.resampler (channelBuffers r.channels r.chunkSize chunk)
    (length_channelBuffers ..) fun _ mem => mem_channelBuffers mem
  rw [processLoop, if_pos full, cut]
  simp only [afterChunk, fill, r.deinterleave_eq length, slices.channelBuffers, feed]
  cases result : Resampler.process r.resampler (channelBuffers r.channels r.chunkSize chunk) with
  | mk state data =>
    rw [result] at succeeds
    cases data with
    | none => cases succeeds
    | some data => rfl

end Loop

section Calls

variable [Resampler σ] {channels chunkSize : Nat} {r : StreamResampler σ}

/-- The resampler and its output, if there was some before, when the inner one has been given
the chunks that were cut off. -/
structure Fed (channels chunkSize : Nat) (state : σ) (before : List ℚ) (scan : Scan ℚ (List ℚ))
    (final : StreamResampler σ × List ℚ) : Prop where
  channels_eq : final.1.channels = channels
  chunkSize_eq : final.1.chunkSize = chunkSize
  pending : final.1.pending = scan.rest
  resampler : final.1.resampler =
    (run feed state (scan.items.map (channelBuffers channels chunkSize))).1
  output : final.2 = before ++
    (run feed state (scan.items.map (channelBuffers channels chunkSize))).2

variable (slices : SlicesBuffers σ) (never : NeverFails σ channels chunkSize)
  (pos : 0 < chunkSize * channels)

include slices never

/-- The loop goes through the chunks of what has not been consumed. -/
theorem processLoop_fed {xs : List ℚ} {scan : Scan ℚ (List ℚ)}
    (scans : (Deframer.fixed (chunkSize * channels) pos).Scans xs scan)
    {consumed : Nat} {output : List ℚ} (sameChannels : r.channels = channels)
    (sameSize : r.chunkSize = chunkSize) (left : r.pending.drop consumed = xs) :
    Fed channels chunkSize r.resampler output scan (finish (r.processLoop consumed output)) := by
  have size : r.samplesPerChunk = chunkSize * channels := by
    rw [samplesPerChunk, sameChannels, sameSize]
  induction scans generalizing r consumed output with
  | more waits =>
    subst left
    have short : r.pending.length - consumed < r.samplesPerChunk := by
      rw [← List.length_drop, size]
      by_contra full
      exact absurd ((Deframer.fixedNext_of_le (Nat.not_lt.mp full)).symm.trans waits) (by simp)
    rw [processLoop_done short]
    exact ⟨sameChannels, sameSize, rfl, rfl, (List.append_nil _).symm⟩
  | stop stops => exact absurd stops (Deframer.fixedNext_ne_stop _ _)
  | skip skips => exact absurd skips (Deframer.fixedNext_ne_skip _ _ _)
  | item cut rest ih =>
    subst left
    obtain ⟨full, rfl, rfl⟩ := Deframer.fixedNext_eq_item cut
    rw [List.length_drop, ← size] at full
    subst sameChannels sameSize
    rw [processLoop_chunk slices never full rfl]
    have next := @ih (r.afterChunk ((r.pending.drop consumed).take r.samplesPerChunk))
      (consumed + r.samplesPerChunk)
      (output ++ (feed r.resampler (channelBuffers r.channels r.chunkSize
        ((r.pending.drop consumed).take r.samplesPerChunk))).2)
      rfl rfl (List.drop_drop ..).symm rfl
    refine ⟨next.channels_eq, next.chunkSize_eq, next.pending, next.resampler, ?_⟩
    rw [next.output, List.append_assoc]
    rfl

/-- One call: what was pending and the new samples are cut into chunks. -/
theorem process_fed (sameChannels : r.channels = channels) (sameSize : r.chunkSize = chunkSize)
    {interleaved : List ℚ} {scan : Scan ℚ (List ℚ)}
    (scans : (Deframer.fixed (chunkSize * channels) pos).Scans (r.pending ++ interleaved) scan) :
    Fed channels chunkSize r.resampler [] scan (r.process interleaved) :=
  processLoop_fed (r := { r with pending := r.pending ++ interleaved }) slices never pos scans
    sameChannels sameSize rfl

/-- Any number of calls cut the whole stream. -/
theorem run_process_fed (sameChannels : r.channels = channels) (sameSize : r.chunkSize = chunkSize)
    (waits : r.pending.length < chunkSize * channels) {calls : List (List ℚ)}
    {scan : Scan ℚ (List ℚ)}
    (scans : (Deframer.fixed (chunkSize * channels) pos).Scans (r.pending ++ calls.flatten) scan) :
    Fed channels chunkSize r.resampler [] scan (run process r calls) := by
  induction calls generalizing r scan with
  | nil =>
    rw [List.flatten_nil, List.append_nil] at scans
    obtain rfl := scans.unique (.more (Deframer.fixedNext_of_lt waits))
    exact ⟨sameChannels, sameSize, rfl, rfl, rfl⟩
  | cons call calls ih =>
    have first := Deframer.scans_fixed (chunkSize * channels) pos (r.pending ++ call)
    have fed := process_fed slices never pos sameChannels sameSize first
    have waits' : (r.process call).1.pending.length < chunkSize * channels := by
      rw [fed.pending]
      exact Deframer.length_rest_fixed first
    have later := Deframer.scans_fixed (chunkSize * channels) pos
      ((r.process call).1.pending ++ calls.flatten)
    have next := ih fed.channels_eq fed.chunkSize_eq waits' later
    rw [fed.pending] at later
    have whole := first.append rfl later
    rw [List.append_assoc, ← List.flatten_cons] at whole
    obtain rfl := scans.unique whole
    refine ⟨next.channels_eq, next.chunkSize_eq, ?_, ?_, ?_⟩
    · rw [run_cons, next.pending, fed.pending]
    · rw [run_cons, next.resampler, fed.resampler, List.map_append, run_append,
        fed.pending]
    · rw [run_cons, next.output, fed.output, fed.resampler, List.map_append,
        run_append, fed.pending]
      rfl

end Calls

/-- An inner resampler that also writes down what it is given. -/
@[reducible] def logged (σ : Type) [Resampler σ] : Resampler (σ × List (List (List ℚ))) where
  new fromRate toRate chunkSize channels :=
    (Resampler.new fromRate toRate chunkSize channels : Option σ).map fun state => (state, [])
  sequentialSlice := Resampler.sequentialSlice σ
  process state input :=
    (((Resampler.process state.1 input).1, state.2 ++ [input]), (Resampler.process state.1 input).2)

/-- The chunks that the inner resampler is given in the course of some calls. -/
def seenChunks [Resampler σ] (r : StreamResampler σ) (calls : List (List ℚ)) :
    List (List (List ℚ)) :=
  let watched := { r with resampler := (r.resampler, []) }
  (run (@process _ (logged σ)) watched calls).1.resampler.2

theorem run_feed_logged [Resampler σ] (state : σ) (log chunks : List (List (List ℚ))) :
    (run (@feed _ (logged σ)) (state, log) chunks).1.2 = log ++ chunks := by
  induction chunks generalizing state log with
  | nil => simp
  | cons chunk chunks ih =>
    rw [run_cons]
    refine (ih _ _).trans ?_
    rw [List.append_assoc]
    rfl

theorem new_eq_some [Resampler σ] {fromRate toRate channels : Nat} {r : StreamResampler σ}
    (created : new fromRate toRate channels = some r) : r.channels = channels ∧ r.pending = [] := by
  unfold new at created
  split at created
  · cases created
  · obtain ⟨state, _, rfl⟩ := Option.map_eq_some_iff.mp created
    exact ⟨rfl, rfl⟩

/-- Without anything pending, calls give the full chunks of their samples to the inner
resampler. -/
theorem run_process_of_empty [Resampler σ] {r : StreamResampler σ} (empty : r.pending = [])
    (slices : SlicesBuffers σ) (never : NeverFails σ r.channels r.chunkSize)
    (calls : List (List ℚ)) :
    (run process r calls).1.resampler =
        (run feed r.resampler (channelChunks r.channels r.chunkSize calls.flatten)).1 ∧
      (run process r calls).2 =
        (run feed r.resampler (channelChunks r.channels r.chunkSize calls.flatten)).2 ∧
      (run process r calls).1.pending.length < r.chunkSize * r.channels := by
  have scans := Deframer.scans_fixed _ r.samplesPerChunk_pos calls.flatten
  have start : r.pending.length < r.chunkSize * r.channels := by
    rw [empty]
    exact r.samplesPerChunk_pos
  rw [← List.nil_append calls.flatten, ← empty] at scans
  have fed := run_process_fed slices never r.samplesPerChunk_pos rfl rfl start scans
  rw [empty, List.nil_append] at fed scans
  rw [channelChunks_eq]
  refine ⟨fed.resampler, fed.output, ?_⟩
  rw [fed.pending]
  exact Deframer.length_rest_fixed scans

/-- From its creation on, the inner resampler is given the full chunks of the stream one after
the other, each with the samples of a channel in its buffer, and its results are passed on.
So it does not matter how the stream is cut into calls, and less than a chunk is pending after
each of them. -/
theorem packetisation [Resampler σ] {fromRate toRate channels : Nat} {r : StreamResampler σ}
    (created : new fromRate toRate channels = some r) (slices : SlicesBuffers σ)
    (never : NeverFails σ channels r.chunkSize) :
    (∀ calls calls' : List (List ℚ), calls.flatten = calls'.flatten →
      (run process r calls).2 = (run process r calls').2) ∧
    (∀ calls : List (List ℚ),
      seenChunks r calls = channelChunks channels r.chunkSize calls.flatten ∧
      (run process r calls).2 =
        (run feed r.resampler (channelChunks channels r.chunkSize calls.flatten)).2) ∧
    ∀ calls : List (List ℚ),
      (run process r calls).1.pending.length < r.chunkSize * channels := by
  obtain ⟨rfl, empty⟩ := new_eq_some created
  refine ⟨?_, ?_, ?_⟩
  · intro calls calls' same
    rw [(run_process_of_empty empty slices never calls).2.1, same,
      (run_process_of_empty empty slices never calls').2.1]
  · intro calls
    have log := (@run_process_of_empty _ (logged σ) { r with resampler := (r.resampler, []) } empty slices
      (fun state => never state.1) calls).1
    refine ⟨?_, (run_process_of_empty empty slices never calls).2.1⟩
    exact (congrArg Prod.snd log).trans (run_feed_logged r.resampler [] _)
  · intro calls
    exact (run_process_of_empty empty slices never calls).2.2

/-- An inner resampler that puts the channels one after the other, with an adapter that checks the
sizes. -/
@[reducible] def joining : Resampler Unit where
  new _ _ _ _ := some ()
  sequentialSlice buffers channels frames :=
    if channels ≤ buffers.length ∧ (∀ buffer ∈ buffers.take channels, frames ≤ buffer.length) then
      some ((buffers.take channels).map fun buffer => buffer.take frames)
    else none
  process state input := (state, some input.flatten)

/-- A chunk of stereo and one more frame: the samples of the left channel are even. -/
def stereoRamp : List ℚ := (List.range 258).map fun n => (n : ℚ)

/-- The first call ends within a frame. The chunk is full with the second one, and the last frame
is left. -/
theorem packetisation_samples :
    ∃ r : StreamResampler Unit, @new Unit joining 44100 48000 2 = some r ∧
      (run (@process Unit joining) r [stereoRamp.take 101, stereoRamp.drop 101]).2 =
        (run (@process Unit joining) r [stereoRamp]).2 ∧
      (run (@process Unit joining) r [stereoRamp.take 101, stereoRamp.drop 101]).2 =
        ((List.range 128).map fun n => ((2 * n : Nat) : ℚ)) ++
          (List.range 128).map fun n => ((2 * n + 1 : Nat) : ℚ) := by
  obtain ⟨same, seen, -⟩ := @packetisation Unit joining 44100 48000 2 _ rfl
    (fun _ _ _ enough long => if_pos ⟨enough, long⟩) fun _ _ _ _ => rfl
  have whole : [stereoRamp.take 101, stereoRamp.drop 101].flatten = [stereoRamp].flatten := by
    simp only [List.flatten_cons, List.flatten_nil, List.append_nil, List.take_append_drop]
  refine ⟨_, rfl, same _ _ whole, (seen _).2.trans ?_⟩
  rw [whole]
  decide +kernel

end StreamResampler

/-- The resampler of the receive loops. -/
instance {σ : Type} [Resampler σ] : StreamResample (StreamResampler σ) where
  new := StreamResampler.new
  process := StreamResampler.process

end Shairplay.Codec
