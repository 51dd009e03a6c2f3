import Shairplay.Codec.Alac.Verbatim
import Shairplay.Raop.Buffer.Frames

/-!
# Which announced streams are playable

`build` accepts every `fmtp` attribute of numbers. A verbatim frame of the announced length,
depth and number of channels is then played if the depth is 16, there are one or two channels
and the frame fits in a packet. Otherwise the decoder is disabled, has no room for its output,
or has been configured with a number cut to eight bits.
-/

namespace Shairplay.Raop

open Lib Lib.Bits Serial Machine
open Shairplay.Codec (AlacDecoder Block elementHeader verbatimBits rowBits rowBytes Stored stored_pack
  decodeFrame_stored bytesPerSample_16 length_rowBits length_rowBytes)

/-- An element of a frame, for one channel or for a pair. -/
structure Element where
  pair : Bool
  tag : Fin 16

def Element.channels (e : Element) : Nat := if e.pair then 2 else 1

/-- The value of a sample between -1 and 1. -/
def sampleValue {depth : Nat} (s : BitVec depth) : Sample :=
  (s.toInt : ℚ) / ((2 ^ (depth - 1) : Nat) : ℚ)

/-- A verbatim frame as a sender may form it for a depth and a number of channels. One or two
channels are one element, more are spread over several. The frame may give its number of
samples and may end with an end element. -/
structure SentFrame (depth channels count : Nat) where
  rows : List (Vector (BitVec depth) channels)
  length_rows : rows.length = count
  elements : List Element
  covers : (elements.map Element.channels).sum = channels
  single : channels ≤ 2 → elements.length = 1
  sized : Bool
  closed : Bool

namespace SentFrame

variable {depth channels count : Nat}

def elementBits (frame : SentFrame depth channels count) (e : Element) (first : Nat) : List Bool :=
  field 3 (e.channels - 1) ++ (elementHeader e.tag frame.sized true frame.rows.length ++
    frame.rows.flatMap fun row =>
      ((row.toList.drop first).take e.channels).flatMap fun s => field depth s.toNat)

def elementsBits (frame : SentFrame depth channels count) : List Element → Nat → List Bool
  | [], _ => []
  | e :: rest, first => frame.elementBits e first ++ frame.elementsBits rest (first + e.channels)

/-- The end element. -/
def closing (frame : SentFrame depth channels count) : List Bool :=
  if frame.closed then field 3 7 else []

def bytes (frame : SentFrame depth channels count) : List UInt8 :=
  pack (frame.elementsBits frame.elements 0 ++ frame.closing)

def values (frame : SentFrame depth channels count) : List Sample :=
  frame.rows.flatMap fun row => row.toList.map sampleValue

theorem length_values (frame : SentFrame depth channels count) :
    frame.values.length = count * channels := by
  rw [values, List.length_flatMap]
  simp [frame.length_rows]

/-- Up to two channels are one element. -/
theorem bytes_eq (frame : SentFrame depth channels count) (few : channels ≤ 2) :
    ∃ tag, frame.bytes = pack (verbatimBits tag frame.sized frame.rows ++ frame.closing) := by
  obtain ⟨e, only⟩ := List.length_eq_one_iff.mp (frame.single few)
  have all : e.channels = channels := by
    have sum := frame.covers
    rw [only] at sum
    simpa using sum
  refine ⟨e.tag, ?_⟩
  have samples (row : Vector (BitVec depth) channels) :
      (row.toList.drop 0).take channels = row.toList := by
    rw [List.drop_zero, List.take_of_length_le (by rw [Vector.length_toList])]
  rw [bytes, only, elementsBits, elementsBits, List.append_nil, elementBits, all, verbatimBits]
  simp only [samples]
  rfl

theorem firstTag_lt : 0 < 16 := Nat.zero_lt_succ 15

/-- One element for up to two channels, one for each channel otherwise. -/
def plainLayout (channels : Nat) : List Element :=
  let tag : Fin 16 := ⟨0, firstTag_lt⟩
  if channels = 2 then [⟨true, tag⟩] else List.replicate channels ⟨false, tag⟩

theorem sum_plainLayout (channels : Nat) :
    ((plainLayout channels).map Element.channels).sum = channels := by
  unfold plainLayout
  split
  · rename_i two
    rw [two]
    rfl
  · simp [Element.channels]

theorem length_plainLayout {channels : Nat} (positive : 0 < channels) (few : channels ≤ 2) :
    (plainLayout channels).length = 1 := by
  unfold plainLayout
  split
  · rfl
  · rw [List.length_replicate]
    omega

/-- Frames of one sample value exist for every depth and every number of channels. -/
def constant (s : BitVec depth) (count : Nat) (positive : 0 < channels) (sized closed : Bool) :
    SentFrame depth channels count where
  rows := List.replicate count (Vector.replicate channels s)
  length_rows := List.length_replicate
  elements := plainLayout channels
  covers := sum_plainLayout channels
  single := length_plainLayout positive
  sized := sized
  closed := closed

end SentFrame

theorem sampleOfBytes_sampleBytes (s : BitVec 16) :
    sampleOfBytes (UInt8.ofNat (s.toNat / 256)) (UInt8.ofNat s.toNat) = sampleValue s := by
  have whole : (UInt8.ofNat (s.toNat / 256)).toBitVec ++ (UInt8.ofNat s.toNat).toBitVec = s := by
    apply BitVec.eq_of_toNat_eq
    have small := s.isLt
    rw [BitVec.toNat_append, UInt8.toNat_toBitVec, UInt8.toNat_toBitVec, UInt8.toNat_ofNat',
      UInt8.toNat_ofNat', ← Nat.shiftLeft_add_eq_or_of_lt (Nat.mod_lt _ (by decide)),
      Nat.shiftLeft_eq]
    omega
  rw [sampleOfBytes, whole, sampleValue]
  norm_num

theorem samples_of_sampleBytes (samples : List (BitVec 16)) :
    ((chunkPairs (samples.flatMap Block.sampleBytes)).map fun p => sampleOfBytes p.2 p.1) =
      samples.map sampleValue := by
  induction samples with
  | nil => rfl
  | cons s samples ih =>
    have bytes : Block.sampleBytes s = [UInt8.ofNat s.toNat, UInt8.ofNat (s.toNat / 256)] := rfl
    rw [List.flatMap_cons, bytes, List.cons_append, List.cons_append, List.nil_append,
      chunkPairs, List.map_cons, ih, List.map_cons, sampleOfBytes_sampleBytes]

section Rows

variable {w c : Nat} (rows : List (Vector (BitVec w) c))

/-- The values of rows are those of their samples, row after row. -/
theorem flatMap_sampleValue :
    (rows.flatMap fun row => row.toList.map sampleValue) =
      (rows.flatMap Vector.toList).map sampleValue := by
  rw [List.map_flatMap]

theorem length_flatMap_toList : (rows.flatMap Vector.toList).length = rows.length * c := by
  rw [List.length_flatMap]
  simp

end Rows

section Decoding

variable {config : AlacConfig} {dec : AlacDecoder} {buf : List UInt8} {tag : Fin 16}
  {sized : Bool} {c : Nat}

/-- A full verbatim frame in a 16-bit session of one or two channels, whoever formed it. -/
theorem decode_stored (serves : config.Serves dec) (frames : config.frameLength ≠ 0)
    (depth : config.bitDepth = 16) (channels : config.numChannels.toNat = c)
    (few : config.numChannels = 1 ∨ config.numChannels = 2) {rows : List (Vector (BitVec 16) c)}
    (full : rows.length = config.frameLength.toNat) (stored : Stored buf tag sized rows) :
    ((Codec.alac config dec).decode config.frameSamples config.frameSamples buf).2 =
      .samples (rows.flatMap fun row => row.toList.map sampleValue) := by
  have settings := serves.settings ⟨.inl depth, few⟩ frames
  have size : dec.sampleSizeConfig.toNat = 16 := by
    rw [settings.depth, depth]
    rfl
  have number : dec.numChannels.toNat = c := settings.channels.trans channels
  have bytes : dec.bytesPerSample.toNat = 2 * c := by
    rw [bytesPerSample_16 settings.ready (BitVec.eq_of_toNat_eq size), number]
  have positive : 0 < rows.length := by
    rw [full]
    exact Nat.pos_of_ne_zero fun zero => frames (UInt32.toNat_inj.mp zero)
  have inhabited : 0 < c := by
    rw [← channels]
    rcases few with h | h <;> rw [h] <;> decide
  have all : config.frameSamples = rows.length * c := by
    rw [AlacConfig.frameSamples, full, channels]
  have enough : dec.maxSamplesPerFrame.toNat * dec.bytesPerSample.toNat ≤
      (List.replicate (config.frameSamples * 2) (0 : UInt8)).length := by
    rw [List.length_replicate, settings.frames, ← full, bytes, all, Nat.mul_assoc, Nat.mul_comm c]
  obtain ⟨next, written⟩ : ∃ next, AlacDecode.decodeFrame dec buf
      (List.replicate (config.frameSamples * 2) 0) = (next,
        overwrite (rows.flatMap rowBytes) (List.replicate (config.frameSamples * 2) 0),
        Option.some (rows.length * dec.bytesPerSample.toNat)) := by
    refine ⟨_, Prod.ext rfl ?_⟩
    exact decodeFrame_stored stored settings.ready size number positive
      (by rw [settings.frames, full]) (fun _ => by rw [settings.frames, full]) enough
  have length : (rows.flatMap rowBytes).length = rows.length * dec.bytesPerSample.toNat := by
    rw [Shairplay.Codec.length_flatMap_const length_rowBytes, bytes]
  have pcm : rows.flatMap rowBytes = (rows.flatMap Vector.toList).flatMap Block.sampleBytes := by
    rw [List.flatMap_assoc]
    rfl
  have count : ((rows.flatMap Vector.toList).map sampleValue).length = config.frameSamples := by
    rw [List.length_map, length_flatMap_toList, all]
  have nonzero : rows.length * dec.bytesPerSample.toNat ≠ 0 := by
    rw [bytes]
    positivity
  have room : (rows.flatMap rowBytes).length ≤ (overwrite (rows.flatMap rowBytes)
      (List.replicate (config.frameSamples * 2) (0 : UInt8))).length := by
    rw [overwrite, List.length_append]
    exact Nat.le_add_right _ _
  rw [Codec.decode, written]
  dsimp only
  rw [Option.getD_some, if_neg nonzero, ← length, Nat.min_eq_left room, take_overwrite, pcm,
    samples_of_sampleBytes, flatMap_sampleValue, List.take_of_length_le (by rw [count])]

/-- What a decoded frame says about the session: its depth is 16, it has one or two channels,
and the frame has no more of them. -/
theorem session_of_decode (serves : config.Serves dec) (frames : config.frameLength ≠ 0)
    {depth channels : Nat} (frame : SentFrame depth channels config.frameLength.toNat)
    (decoded : ((Codec.alac config dec).decode config.frameSamples config.frameSamples
      frame.bytes).2 = .samples frame.values) :
    config.bitDepth = 16 ∧ (config.numChannels = 1 ∨ config.numChannels = 2) ∧
      channels ≤ config.numChannels.toNat := by
  have written := serves.writes frames frame.bytes
    (List.length_replicate (n := config.frameSamples * 2) (a := 0))
  simp only [Codec.decode] at decoded
  split at decoded
  · cases decoded
  · rename_i nonzero
    rcases written with nothing | ⟨depth, few, -⟩
    · exact absurd nothing nonzero
    · have short := congrArg List.length (Decoded.samples.inj decoded)
      rw [frame.length_values] at short
      have room : config.frameLength.toNat * channels ≤ config.frameSamples := by
        rw [← short]
        exact List.length_take_le _ _
      refine ⟨depth, few, Nat.le_of_mul_le_mul_left room ?_⟩
      exact Nat.pos_of_ne_zero fun zero => frames (UInt32.toNat_inj.mp zero)

/-- Some rows of every size stand at every position. -/
theorem exists_held_rows (buf : List UInt8) (q w c n : Nat) :
    ∃ rows : List (Vector (BitVec w) c), rows.length = n ∧ Holds buf q (rows.flatMap rowBits) := by
  have words (q k : Nat) : ∃ words : List (BitVec w), words.length = k ∧
      Holds buf q (words.flatMap fun s => field w s.toNat) := by
    induction k generalizing q with
    | zero => exact ⟨[], rfl, rfl⟩
    | succ k ih =>
      obtain ⟨rest, length, held⟩ := ih (q + w)
      refine ⟨BitVec.ofNat w (value (bitsAt buf q w)) :: rest, by rw [List.length_cons, length], ?_⟩
      have small := value_lt (bitsAt buf q w)
      rw [length_bitsAt] at small
      rw [List.flatMap_cons, holds_append, BitVec.toNat_ofNat, Nat.mod_eq_of_lt small, length_field]
      exact ⟨holds_value buf q w, held⟩
  induction n generalizing q with
  | zero => exact ⟨[], rfl, rfl⟩
  | succ n ih =>
    obtain ⟨row, size, first⟩ := words q c
    obtain ⟨rest, length, held⟩ := ih (q + (row.flatMap fun s => field w s.toNat).length)
    refine ⟨⟨row.toArray, size⟩ :: rest, by rw [List.length_cons, length], ?_⟩
    rw [List.flatMap_cons, holds_append]
    exact ⟨first, held⟩

theorem exists_first {w c q : Nat} {rows : List (Vector (BitVec w) c)}
    (held : Holds buf q (rows.flatMap rowBits)) (some_rows : 0 < rows.length) (positive : 0 < c) :
    ∃ s, Holds buf q (field w s.toNat) ∧ s ∈ rows.flatMap Vector.toList ∧
      (rows.flatMap fun row => row.toList.map sampleValue).head? = some (sampleValue s) := by
  have bits : rows.flatMap rowBits = (rows.flatMap Vector.toList).flatMap fun s =>
      field w s.toNat := by
    rw [List.flatMap_assoc]
    rfl
  have length := length_flatMap_toList rows
  rw [bits] at held
  rw [flatMap_sampleValue]
  cases flat : rows.flatMap Vector.toList with
  | nil =>
    rw [flat] at length
    exact absurd length (Nat.ne_of_lt (Nat.mul_pos some_rows positive))
  | cons s rest =>
    rw [flat, List.flatMap_cons, holds_append] at held
    exact ⟨s, held.1, List.mem_cons_self, rfl⟩

/-- A depth beyond 16 bits that is cut to 16: the first sample that is read is the zero at the
start of the first sample that was stored. -/
theorem not_decode_deep (serves : config.Serves dec) (frames : config.frameLength ≠ 0)
    (sixteen : config.bitDepth = 16) (few : config.numChannels = 1 ∨ config.numChannels = 2)
    {depth : Nat} (deep : 16 < depth) (positive : 0 < config.numChannels.toNat) :
    let frame := SentFrame.constant (1 : BitVec depth) config.frameLength.toNat positive false false
    ((Codec.alac config dec).decode config.frameSamples config.frameSamples frame.bytes).2 ≠
      .samples frame.values := by
  intro frame decoded
  have small : config.numChannels.toNat ≤ 2 := by
    rcases few with h | h <;> rw [h] <;> decide
  obtain ⟨tag, bytes⟩ := frame.bytes_eq small
  have sent := stored_pack tag frame.sized frame.rows frame.closing
  rw [← bytes] at sent
  obtain ⟨rows, length, held⟩ := exists_held_rows frame.bytes
    (3 + (elementHeader tag frame.sized true frame.rows.length).length) 16
    config.numChannels.toNat config.frameLength.toNat
  have full : 0 < config.frameLength.toNat :=
    Nat.pos_of_ne_zero fun zero => frames (UInt32.toNat_inj.mp zero)
  have same : rows.length = frame.rows.length := length.trans frame.length_rows.symm
  have stored : Stored frame.bytes tag frame.sized rows := by
    refine ⟨sent.element, ?_, ?_⟩
    · rw [same]
      exact sent.header
    · rw [same]
      exact held
  rw [decode_stored serves frames sixteen rfl few length stored] at decoded
  have heads := congrArg List.head? (Decoded.samples.inj decoded)
  obtain ⟨s, read, -, first⟩ := exists_first held (by rw [length]; exact full) positive
  obtain ⟨t, written, mem, given⟩ := exists_first sent.payload
    (by rw [frame.length_rows]; exact full) positive
  have one : t = 1 := by
    obtain ⟨row, member, inside⟩ := List.mem_flatMap.mp mem
    rw [List.eq_of_mem_replicate member, Vector.toList_replicate] at inside
    exact List.eq_of_mem_replicate inside
  have zero : s = 0 := by
    obtain ⟨r, rfl⟩ : ∃ r, depth = 16 + (r + 1) := ⟨depth - 17, by omega⟩
    have unit : (1 : BitVec (16 + (r + 1))).toNat = 1 := BitVec.toNat_one (by omega)
    rw [one, unit, field_add, holds_append, Nat.div_eq_of_lt (Nat.one_lt_two_pow (by omega))]
      at written
    have number := value_of_holds read
    rw [value_of_holds written.1, Nat.mod_eq_of_lt s.isLt] at number
    exact BitVec.eq_of_toNat_eq number.symm
  rw [first, SentFrame.values, given, Option.some.injEq, zero, one] at heads
  have unit : (1 : BitVec depth).toNat = 1 := BitVec.toNat_one (by omega)
  have small : 2 * (1 : BitVec depth).toNat < 2 ^ depth := by
    rw [unit]
    calc 2 * 1 < 2 ^ 16 := by decide
      _ ≤ 2 ^ depth := Nat.pow_le_pow_right (by decide) (by omega)
  have positive : (0 : ℚ) < sampleValue (1 : BitVec depth) := by
    rw [sampleValue, BitVec.toInt_eq_toNat_of_lt small, unit]
    apply div_pos
    · norm_num
    · exact Nat.cast_pos.mpr (Nat.two_pow_pos _)
  rw [← heads] at positive
  simp [sampleValue] at positive

end Decoding

namespace RaopBuffer

/-- Nothing is pending, and the packet starts the window or continues it. -/
structure Next {δ : Type} (b : RaopBuffer δ) (data : List UInt8) (useSeqnum : Bool) : Prop where
  idle : b.pendingCount = 0
  due : b.isEmpty = true ∨ b.packetSeqnum data useSeqnum = b.firstSeqnum

section Plays

variable {δ : Type} [AlacDecode δ] (cbc : AesSession → List UInt8 → List UInt8)

/-- A packet that is next is accepted, and the frame is taken in either mode. -/
def Plays (b : RaopBuffer δ) (data : List UInt8) (frame : List Sample) : Prop :=
  ∀ useSeqnum noResend, Next b data useSeqnum →
    (b.queue cbc data useSeqnum).2 = 1 ∧
      ((b.queue cbc data useSeqnum).1.dequeue noResend).2 = some frame

variable {cbc} {b b' : RaopBuffer δ} {data : List UInt8} {useSeqnum : Bool}

namespace Next

omit [AlacDecode δ] in
theorem not_stale (next : Next b data useSeqnum) :
    b.isStale (b.packetSeqnum data useSeqnum) = false := by
  rcases next.due with empty | first
  · rw [isStale, empty]
    rfl
  · rw [isStale, first, seqnumCmp_eq_zero.mpr rfl]
    simp

omit [AlacDecode δ] in
/-- Only an empty buffer resynchronises. -/
theorem isEmpty_of_farAhead (next : Next b data useSeqnum)
    (far : b.isFarAhead (b.packetSeqnum data useSeqnum) = true) : b.isEmpty = true := by
  rcases next.due with empty | first
  · exact empty
  · rw [isFarAhead, first, decide_eq_true_eq] at far
    have back :
        seqnumCmp b.firstSeqnum (b.firstSeqnum + BitVec.ofNat 16 raopBufferLength) = -32 := by
      rw [seqnumCmp, show b.firstSeqnum - (b.firstSeqnum + BitVec.ofNat 16 raopBufferLength) =
        BitVec.ofInt 16 (-32) by rw [raopBufferLength]; bv_omega]
      rfl
    omega

omit [AlacDecode δ] in
/-- The packet is the whole window. -/
theorem ends (next : Next b data useSeqnum) (codec : Codec δ) (samples : List Sample) :
    let b' := b.accepting data (b.packetSeqnum data useSeqnum) codec samples
    b'.firstSeqnum = b.packetSeqnum data useSeqnum ∧
      b'.lastSeqnum = b.packetSeqnum data useSeqnum := by
  cases empty : b.isEmpty with
  | true => exact accepting_of_empty data _ codec samples empty
  | false =>
    have first := next.due.resolve_left (by simp [empty])
    obtain ⟨start, stop⟩ := accepting_of_nonempty data (b.packetSeqnum data useSeqnum) codec
      samples empty
    have idle := next.idle
    rw [pendingCount, empty] at idle
    have after : b.lastSeqnum + 1 = b.firstSeqnum := by
      have zero : dist (b.lastSeqnum + 1) b.firstSeqnum = 0 := idle
      exact dist_eq_zero.mp zero
    refine ⟨start.trans first.symm, ?_⟩
    rw [stop, first, if_pos]
    rw [← after, seqnumCmp, show b.lastSeqnum + 1 - b.lastSeqnum = 1 by bv_omega]
    decide

end Next

omit [AlacDecode δ] in
/-- A frame that is the whole window is taken. -/
theorem dequeue_accepting {seqnum : BitVec 16} {codec : Codec δ} {samples : List Sample}
    (first : (b.accepting data seqnum codec samples).firstSeqnum = seqnum)
    (last : (b.accepting data seqnum codec samples).lastSeqnum = seqnum) (noResend : Bool) :
    ((b.accepting data seqnum codec samples).dequeue noResend).2 = some samples := by
  have entry : ((b.accepting data seqnum codec samples).entryAt (slot seqnum)).available = true ∧
      ((b.accepting data seqnum codec samples).entryAt (slot seqnum)).audioBuffer.take
        ((b.accepting data seqnum codec samples).entryAt (slot seqnum)).audioBufferLen =
          samples := by
    rw [accepting, updateWindow_entryAt]
    exact ⟨(entryAt_store_same _ data seqnum samples).1,
      (entryAt_store_same _ data seqnum samples).2.2⟩
  have ready : ¬ (b.accepting data seqnum codec samples).Waits noResend := by
    rw [Waits, first, last, entry.1, seqnumCmp_eq_zero.mpr rfl]
    have nonempty : (b.accepting data seqnum codec samples).isEmpty = false :=
      updateWindow_isEmpty _ _
    rw [nonempty]
    simp
  obtain ⟨e, -, -, taken⟩ := dequeue_takes ready
  rw [taken, first, frameIn, if_pos entry.1, entry.2]

/-- A packet that is next is played exactly if it has the size of a packet and decodes. -/
theorem Next.plays_iff (next : Next b data useSeqnum) (window : Window b) (noResend : Bool)
    (samples : List Sample) :
    ((b.queue cbc data useSeqnum).2 = 1 ∧
        ((b.queue cbc data useSeqnum).1.dequeue noResend).2 = some samples) ↔
      (12 ≤ data.length ∧ data.length ≤ raopPacketLen) ∧
        (b.decodePacket cbc data (b.packetSeqnum data useSeqnum)).2 = .samples samples := by
  have offered := queue_offered cbc b data useSeqnum
  generalize (b.queue cbc data useSeqnum).1 = after, (b.queue cbc data useSeqnum).2 = code
    at offered ⊢
  have free (i : Fin raopBufferLength) : (b.entryAt i).available = false := by
    by_contra available
    rw [Bool.not_eq_false] at available
    have inside := window.inside i available
    have idle := next.idle
    rw [pendingCount, window.nonempty i available] at idle
    have zero : dist (b.lastSeqnum + 1) b.firstSeqnum = 0 := idle
    omega
  -- what the decoder yields is what is taken, in either case of the acceptance
  have taken {s : RaopBuffer δ} (same : s.decodePacket cbc data (b.packetSeqnum data useSeqnum) =
        b.decodePacket cbc data (b.packetSeqnum data useSeqnum))
      (vacant : (s.entryAt (slot (b.packetSeqnum data useSeqnum))).available = false)
      (ends : ∀ codec samples,
        (s.accepting data (b.packetSeqnum data useSeqnum) codec samples).firstSeqnum =
            b.packetSeqnum data useSeqnum ∧
          (s.accepting data (b.packetSeqnum data useSeqnum) codec samples).lastSeqnum =
            b.packetSeqnum data useSeqnum)
      (queued : Queued cbc s data (b.packetSeqnum data useSeqnum) after code) :
      (code = 1 ∧ (after.dequeue noResend).2 = some samples) ↔
        (b.decodePacket cbc data (b.packetSeqnum data useSeqnum)).2 = .samples samples := by
    rw [← same]
    cases queued with
    | duplicate available _ =>
      rw [vacant] at available
      cases available
    | rejected _ decoded other =>
      rw [decoded]
      exact ⟨fun h => absurd h.1 other, fun h => by cases h⟩
    | accepted decoded =>
      rename_i codec found
      obtain ⟨first, last⟩ := ends codec found
      rw [decoded, dequeue_accepting first last]
      simp [eq_comm]
  cases offered with
  | malformed size =>
    exact ⟨fun h => absurd h.1 (by decide), fun h => absurd h.1 size⟩
  | stale _ stale =>
    rw [next.not_stale] at stale
    cases stale
  | near size _ _ queued =>
    rw [taken rfl (free _) next.ends queued]
    exact ⟨fun h => ⟨size, h⟩, fun h => h.2⟩
  | resync size _ far queued =>
    have empty := next.isEmpty_of_farAhead far
    have still : (b.flush (b.packetSeqnum data useSeqnum).toNat).isEmpty = true := by
      unfold flush
      split
      · rfl
      · exact empty
    rw [taken (decodePacket_flush cbc b _ data _) (flush_available b _ _)
      (fun codec samples => accepting_of_empty data _ codec samples still) queued]
    exact ⟨fun h => ⟨size, h⟩, fun h => h.2⟩

end Plays

variable {b b' : RaopBuffer AlacDecoder} {config : AlacConfig}

/-- An unencrypted `AppleLossless` session with a configuration. -/
structure Plain (config : AlacConfig) (b : RaopBuffer AlacDecoder) : Prop where
  aes : b.aes = none
  codec : ∃ dec, b.codec = .alac config dec

namespace Plain

variable (cbc : AesSession → List UInt8 → List UInt8)

theorem decodePacket (h : Plain config b) (data : List UInt8) (seqnum : BitVec 16) :
    ∃ dec, (b.decodePacket cbc data seqnum).1 = .alac config dec := by
  obtain ⟨dec, codec⟩ := h.codec
  unfold RaopBuffer.decodePacket
  rw [codec]
  simp only [Codec.decode]
  split <;> exact ⟨_, rfl⟩

theorem flush (h : Plain config b) (nextSeq : Int) : Plain config (b.flush nextSeq) := by
  unfold RaopBuffer.flush
  split <;> exact ⟨h.aes, h.codec⟩

variable {cbc} in
theorem queued (h : Plain config b) {data : List UInt8} {seqnum : BitVec 16} {code : Int}
    (queued : Queued cbc b data seqnum b' code) : Plain config b' := by
  obtain ⟨dec, kept⟩ := h.decodePacket cbc data seqnum
  cases queued with
  | duplicate => exact h
  | rejected _ decoded _ =>
    rw [decoded] at kept
    exact ⟨h.aes, dec, kept⟩
  | accepted decoded =>
    rw [decoded] at kept
    unfold accepting updateWindow
    dsimp only
    split <;> split <;> exact ⟨h.aes, dec, kept⟩

theorem call (h : Plain config b) (c : Call) : Plain config (b.call cbc c).1 := by
  cases c with
  | queue data useSeqnum =>
    show Plain config (b.queue cbc data useSeqnum).1
    have offered := queue_offered cbc b data useSeqnum
    generalize (b.queue cbc data useSeqnum).1 = after, (b.queue cbc data useSeqnum).2 = code
      at offered ⊢
    cases offered with
    | malformed => exact h
    | stale => exact h
    | near _ _ _ queued => exact h.queued queued
    | resync _ _ _ queued => exact (h.flush _).queued queued
  | dequeue noResend =>
    show Plain config (b.dequeue noResend).1
    by_cases waits : b.Waits noResend
    · rw [dequeue_waits waits]
      exact h
    · obtain ⟨e, -, -, taken⟩ := dequeue_takes waits
      rw [taken]
      exact ⟨h.aes, h.codec⟩
  | flush nextSeq => exact h.flush nextSeq

/-- The payload reaches the decoder as it was sent. -/
theorem decodes (h : Plain config b) {channels capacity : Nat} (sound : Sound channels capacity b)
    {header : List UInt8} (rtp : header.length = 12) (payload : List UInt8) (seqnum : BitVec 16) :
    ∃ dec, config.Serves dec ∧ b.decodePacket cbc (header ++ payload) seqnum =
      (Codec.alac config dec).decode config.frameSamples config.frameSamples payload := by
  obtain ⟨dec, codec⟩ := h.codec
  have sized := sound.codec
  rw [codec] at sized
  obtain ⟨-, -, serves, size, -⟩ := sized
  have clear : b.decryptPayload cbc payload = payload := by
    rw [decryptPayload, h.aes]
  refine ⟨dec, serves, ?_⟩
  rw [RaopBuffer.decodePacket, sound.slots, sound.room, codec, size, ← rtp, List.drop_left, clear]

end Plain

/-- What `build` makes of the attributes of an `AppleLossless` stream. -/
theorem plain_build {rtpmap fmtp : String} (named : parseCodec rtpmap = some .alac)
    (built : build rtpmap fmtp none = some b) :
    b.isEmpty = true ∧ ∃ config, parseFmtp fmtp = some config ∧ Plain config b := by
  obtain ⟨⟨codec, capacity, silence⟩, made, same⟩ := Option.bind_eq_some_iff.mp built
  cases same
  unfold buildCodec at made
  obtain ⟨kind, found, made⟩ := Option.bind_eq_some_iff.mp made
  cases named.symm.trans found
  obtain ⟨config, fields, made⟩ := Option.bind_eq_some_iff.mp made
  cases made
  exact ⟨rfl, config, fields, rfl, _, rfl⟩

/-- A number of the attribute. -/
def fmtpField (fmtp : String) (i : Nat) : Option Nat :=
  Str.parseUnsigned (2 ^ 32) ((fmtp.toList.splitOn ' ').getD i [])

/-- The bytes of the longest verbatim frame of 16-bit samples in one element: it gives its
number of samples and has an end element. -/
def longestFrame (frameLength channels : Nat) : Nat :=
  (58 + frameLength * (channels * 16) + 7) / 8

theorem length_bytes_le {channels count : Nat} (frame : SentFrame 16 channels count)
    (few : channels ≤ 2) : frame.bytes.length ≤ longestFrame count channels := by
  obtain ⟨tag, bytes⟩ := frame.bytes_eq few
  have closing : frame.closing.length ≤ 3 := by
    unfold SentFrame.closing
    split <;> simp
  have header : (elementHeader tag frame.sized true frame.rows.length).length ≤ 52 := by
    simp only [elementHeader, List.length_append, length_field]
    split <;> simp
  have samples : (frame.rows.flatMap rowBits).length = count * (channels * 16) := by
    rw [List.length_flatMap]
    simp [frame.length_rows]
  rw [bytes, length_pack, longestFrame, verbatimBits]
  simp only [List.length_append, length_field, samples]
  omega

theorem length_bytes_longest {channels count : Nat} (positive : 0 < channels) (few : channels ≤ 2) :
    (SentFrame.constant (0 : BitVec 16) count positive true true).bytes.length =
      longestFrame count channels := by
  obtain ⟨tag, bytes⟩ := (SentFrame.constant (0 : BitVec 16) count positive true true).bytes_eq few
  have samples : ((SentFrame.constant (0 : BitVec 16) count positive true true).rows.flatMap
      rowBits).length = count * (channels * 16) := by
    rw [List.length_flatMap]
    simp [SentFrame.constant]
  have sized : (SentFrame.constant (0 : BitVec 16) count positive true true).sized = true := rfl
  have closing : (SentFrame.constant (0 : BitVec 16) count positive true true).closing =
    field 3 7 := rfl
  rw [bytes, length_pack, longestFrame, verbatimBits, sized, closing]
  simp only [List.length_append, length_field, samples, elementHeader, if_true]
  omega

/-- An accepted `AppleLossless` stream is playable exactly if its depth is 16, it has one or
two channels and its longest verbatim frame fits in a packet: then every verbatim frame of
the announced format that is next, after any calls, is accepted and taken with the values of
its samples. -/
theorem playable_iff (cbc : AesSession → List UInt8 → List UInt8) {rtpmap fmtp : String}
    (named : parseCodec rtpmap = some .alac) (built : build rtpmap fmtp none = some b)
    {frameLength depth channels : Nat} (frames : fmtpField fmtp 1 = some frameLength)
    (bits : fmtpField fmtp 3 = some depth) (number : fmtpField fmtp 7 = some channels) :
    (∀ (calls : List Call) (header : List UInt8) (frame : SentFrame depth channels frameLength),
        header.length = 12 →
        Plays cbc (run (call cbc) b calls).1 (header ++ frame.bytes) frame.values) ↔
      depth = 16 ∧ (channels = 1 ∨ channels = 2) ∧
        12 + longestFrame frameLength channels ≤ raopPacketLen := by
  obtain ⟨empty, config, parsed, plain⟩ := plain_build named built
  obtain ⟨frames', depth', channels', announces⟩ := AlacConfig.announces_of_parseFmtp parsed
  obtain rfl : frames' = frameLength := Option.some.inj (announces.frames_parsed.symm.trans frames)
  obtain rfl : depth' = depth := Option.some.inj (announces.depth_parsed.symm.trans bits)
  obtain rfl : channels' = channels :=
    Option.some.inj (announces.channels_parsed.symm.trans number)
  have sound := sound_build built
  obtain rfl : frames' = config.frameLength.toNat := by
    rw [announces.frames_eq, UInt32.toNat_ofNat',
      Nat.mod_eq_of_lt (Str.parseUnsigned_lt announces.frames_parsed)]
  have cut {n : Nat} (parsed : n < 2 ^ 32) : (UInt32.ofNat n).toUInt8.toNat = n % 2 ^ 8 := by
    rw [UInt32.toNat_toUInt8, UInt32.toNat_ofNat', Nat.mod_eq_of_lt parsed]
  have narrowed := congrArg UInt8.toNat announces.channels_eq
  rw [cut (Str.parseUnsigned_lt announces.channels_parsed)] at narrowed
  constructor
  · intro all
    have positive : 0 < channels' := by
      apply Nat.pos_of_ne_zero
      rintro rfl
      exact announces.channels_ne (UInt8.toNat_inj.mp narrowed)
    have played (frame : SentFrame depth' channels' config.frameLength.toNat) :
        12 + frame.bytes.length ≤ raopPacketLen ∧ ∃ dec, config.Serves dec ∧
          ((Codec.alac config dec).decode config.frameSamples config.frameSamples
            frame.bytes).2 = .samples frame.values := by
      have next : Next b (List.replicate 12 0 ++ frame.bytes) true :=
        ⟨by rw [pendingCount, if_pos empty], .inl empty⟩
      have plays := all [] (List.replicate 12 0) frame rfl true true next
      obtain ⟨size, decoded⟩ :=
        (next.plays_iff (represents_build built).window true frame.values).mp plays
      have rtp : (List.replicate 12 (0 : UInt8)).length = 12 := rfl
      obtain ⟨dec, serves, same⟩ := plain.decodes cbc sound rtp frame.bytes
        (b.packetSeqnum (List.replicate 12 0 ++ frame.bytes) true)
      rw [same] at decoded
      rw [List.length_append, List.length_replicate] at size
      exact ⟨size.2, dec, serves, decoded⟩
    obtain ⟨-, dec, serves, decoded⟩ := played (.constant 0 _ positive true true)
    obtain ⟨sixteen, few, more⟩ := session_of_decode serves announces.frames_ne _ decoded
    obtain rfl : channels' = config.numChannels.toNat := by
      apply Nat.le_antisymm more
      rw [narrowed]
      exact Nat.mod_le _ _
    have small : config.numChannels.toNat = 1 ∨ config.numChannels.toNat = 2 := by
      rcases few with h | h <;> rw [h] <;> decide
    obtain rfl : depth' = 16 := by
      by_contra other
      have low := congrArg UInt8.toNat announces.depth_eq
      rw [cut (Str.parseUnsigned_lt announces.depth_parsed), sixteen] at low
      have deep : 16 < depth' := by
        have sixteen : (16 : UInt8).toNat = 16 := rfl
        omega
      obtain ⟨-, dec, serves, decoded⟩ := played (.constant 1 _ positive false false)
      exact not_decode_deep serves announces.frames_ne sixteen few deep positive decoded
    refine ⟨rfl, small, ?_⟩
    rw [← length_bytes_longest positive (by omega)]
    exact (played _).1
  · rintro ⟨rfl, few, fits⟩ calls header frame rtp useSeqnum noResend next
    have kept : Plain config (run (call cbc) b calls).1 ∧
        Sound b.format.numChannels.toNat b.frameCapacity (run (call cbc) b calls).1 := by
      refine run_keeps (P := fun s => Plain config s ∧
        Sound b.format.numChannels.toNat b.frameCapacity s) ?_ ⟨plain, sound⟩ calls
      intro s c h
      refine ⟨h.1.call cbc c, (h.2.call ?_ c).1⟩
      intro session encrypted
      rw [h.1.aes] at encrypted
      cases encrypted
    have number : config.numChannels.toNat = channels' := by
      rw [narrowed]
      exact Nat.mod_eq_of_lt (by omega)
    have two : config.numChannels = 1 ∨ config.numChannels = 2 := by
      rcases few with h | h
      · exact .inl (UInt8.toNat_inj.mp (number.trans h))
      · exact .inr (UInt8.toNat_inj.mp (number.trans h))
    have size := length_bytes_le frame (by omega)
    rw [next.plays_iff (window_run cbc built calls)]
    refine ⟨by rw [List.length_append, rtp]; omega, ?_⟩
    obtain ⟨dec, serves, same⟩ := kept.1.decodes cbc kept.2 rtp frame.bytes
      ((run (call cbc) b calls).1.packetSeqnum (header ++ frame.bytes) useSeqnum)
    obtain ⟨tag, bytes⟩ := frame.bytes_eq (by omega)
    rw [same, bytes]
    exact decode_stored serves announces.frames_ne announces.depth_eq number two
      frame.length_rows (stored_pack tag frame.sized frame.rows frame.closing)

/-- The buffer of a stereo stream of one sample a frame. -/
def singleStereo (bitDepth : UInt8) : RaopBuffer AlacDecoder :=
  let config : AlacConfig := ⟨1, 0, bitDepth, 40, 10, 14, 2, 255, 0, 0, 44100⟩
  fresh none (.alac config config.decoder) config.frameSamples config.frameSamples

/-- A packet with one verbatim sample for each of two channels. -/
def singlePacket {depth : Nat} (s : BitVec depth) : List UInt8 :=
  List.replicate 12 0 ++ (SentFrame.constant s 1 Nat.two_pos false true).bytes

theorem playable_iff_sixteen :
    Plays (fun _ block => block) (singleStereo 16) (singlePacket (5 : BitVec 16))
      [5 / 32768, 5 / 32768] := by
  have plays := (@playable_iff (singleStereo 16) (fun _ block => block) "96 AppleLossless"
    "96 1 0 16 40 10 14 2 255 0 0 44100" (by decide +kernel) rfl 1 16 2 (by decide +kernel)
    (by decide +kernel) (by decide +kernel)).mpr ⟨rfl, .inr rfl, by decide⟩ []
    (List.replicate 12 0) (.constant 5 1 Nat.two_pos false true) rfl
  have values : (SentFrame.constant (5 : BitVec 16) 1 Nat.two_pos false true).values =
      [5 / 32768, 5 / 32768] := by decide +kernel
  rw [values] at plays
  exact plays

/-- A 24-bit stream is accepted, and its frames are not. -/
theorem deep_stream_silent :
    build "96 AppleLossless" "96 1 0 24 40 10 14 2 255 0 0 44100" none = some (singleStereo 24) ∧
      ((singleStereo 24).queue (fun _ block => block) (singlePacket (5 : BitVec 24)) true).2 = 0 :=
  ⟨rfl, by decide +kernel⟩

end RaopBuffer

end Shairplay.Raop
