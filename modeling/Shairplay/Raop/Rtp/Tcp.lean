import Shairplay.Lib.Deframer
import Shairplay.Lib.Machine
import Shairplay.Raop.Buffer.Refinement
import Shairplay.Raop.Rtp

/-!
# Interleaved delivery

What the TCP task plays is a function of the byte stream: the frames that the packets of
the stream decode to, in order. The deframer of the wire format says which packets a
stream has. Between two packets the buffer holds no frame and its window is empty, so a
packet that decodes is played at once under the next local sequence number, and a packet
that does not decode leaves that number to the next one.
-/

namespace Shairplay.Raop

open Lib
open Shairplay.Codec (StreamResample)

/-- The interleaved format. Input that does not start a frame of channel 0 is skipped byte
by byte; a frame that is longer than a packet may be ends the stream. -/
def nextPacket : List UInt8 → Verdict (List UInt8)
  | dollar :: channel :: hi :: lo :: rest =>
    let len := hi.toNat * 256 + lo.toNat
    if dollar ≠ 0x24 ∨ channel ≠ 0 then .skip 1
    else if raopPacketLen < len then .stop
    else if rest.length < len then .more
    else .item (rest.take len) (4 + len)
  | _ => .more

/-- The ways in which the format can be read. -/
theorem nextPacket_cases (bytes : List UInt8) :
    (bytes.length < 4 ∧ nextPacket bytes = .more) ∨
      ∃ dollar channel hi lo rest, bytes = dollar :: channel :: hi :: lo :: rest := by
  match bytes with
  | dollar :: channel :: hi :: lo :: rest => exact .inr ⟨dollar, channel, hi, lo, rest, rfl⟩
  | [] | [_] | [_, _] | [_, _, _] => exact .inl ⟨by simp, rfl⟩

/-- What the format can decide, and what is known of the input then. -/
inductive PacketRead (bytes : List UInt8) : Verdict (List UInt8) → Prop
  | more : bytes.length < 4 + raopPacketLen → PacketRead bytes .more
  | skip : 4 ≤ bytes.length → PacketRead bytes (.skip 1)
  | stop : PacketRead bytes .stop
  | item {packet : List UInt8} {n : Nat} : packet.length ≤ raopPacketLen →
      n = 4 + packet.length → n ≤ bytes.length → PacketRead bytes (.item packet n)

theorem nextPacket_read (bytes : List UInt8) : PacketRead bytes (nextPacket bytes) := by
  rcases nextPacket_cases bytes with ⟨short, more⟩ | ⟨dollar, channel, hi, lo, rest, rfl⟩
  · rw [more]
    exact .more (Nat.lt_of_lt_of_le short (Nat.le_add_right _ _))
  · have count : (dollar :: channel :: hi :: lo :: rest).length = 4 + rest.length := by
      simp only [List.length_cons]
      omega
    rw [nextPacket]
    split
    · exact .skip (by omega)
    split
    · exact .stop
    split
    · exact .more (by omega)
    · rename_i whole
      have taken : (rest.take (hi.toNat * 256 + lo.toNat)).length = hi.toNat * 256 + lo.toNat :=
        List.length_take_of_le (by omega)
      exact .item (by omega) (by rw [taken]) (by omega)

def interleaved : Deframer UInt8 (List UInt8) where
  next := nextPacket
  skip_pos := by
    intro bytes n skipped
    have read := nextPacket_read bytes
    rw [skipped] at read
    cases read with
    | skip long => exact ⟨Nat.one_pos, by omega⟩
  item_pos := by
    intro bytes packet n cut
    have read := nextPacket_read bytes
    rw [cut] at read
    cases read with
    | item small size inside => exact ⟨by omega, inside⟩
  stable := by
    intro bytes later decided
    rcases nextPacket_cases bytes with ⟨-, more⟩ | ⟨dollar, channel, hi, lo, rest, rfl⟩
    · exact absurd more decided
    · simp only [List.cons_append, nextPacket] at decided ⊢
      split
      · rfl
      · rename_i starts
        rw [if_neg starts] at decided
        split
        · rfl
        · rename_i small
          rw [if_neg small] at decided
          split at decided
          · exact absurd rfl decided
          · rename_i whole
            rw [if_neg whole, List.length_append, if_neg (by omega),
              List.take_append_of_le_length (by omega)]

/-- The packets of a stream, up to the first oversized frame. -/
def packetsOf (stream : List UInt8) : List (List UInt8) := (interleaved.scan stream).items

/-- A stream that waits for more holds less than a packet and its header. -/
theorem length_of_more {bytes : List UInt8} (more : nextPacket bytes = .more) :
    bytes.length < 4 + raopPacketLen := by
  have read := nextPacket_read bytes
  rw [more] at read
  cases read with
  | more short => exact short

/-- A packet is never longer than the buffer accepts. -/
theorem length_of_item {bytes packet : List UInt8} {n : Nat}
    (cut : nextPacket bytes = .item packet n) : packet.length ≤ raopPacketLen := by
  have read := nextPacket_read bytes
  rw [cut] at read
  cases read with
  | item small size inside => exact small

namespace RaopBuffer

variable {δ : Type} [AlacDecode δ] (cbc : AesSession → List UInt8 → List UInt8)

/-- What a packet decodes to, with the codec after it. A packet needs a whole header, and
the settings are those of the buffer. -/
def decoding (b : RaopBuffer δ) (codec : Codec δ) (packet : List UInt8) :
    Codec δ × Option (List Sample) :=
  if packet.length < 12 then (codec, none)
  else
    let decoded :=
      codec.decode b.frameCapacity b.frameCapacity (b.decryptPayload cbc (packet.drop 12))
    match decoded.2 with
    | .samples samples => (decoded.1, some samples)
    | .rejected _ => (decoded.1, none)

/-- The frames that packets decode to, one after the other. -/
def decodings (b : RaopBuffer δ) : Codec δ → List (List UInt8) → List (List Sample)
  | _, [] => []
  | codec, packet :: packets =>
    (b.decoding cbc codec packet).2.toList ++ b.decodings (b.decoding cbc codec packet).1 packets

def codecAfter (b : RaopBuffer δ) (codec : Codec δ) (packets : List (List UInt8)) : Codec δ :=
  packets.foldl (fun codec packet => (b.decoding cbc codec packet).1) codec

theorem decodings_append (b : RaopBuffer δ) (codec : Codec δ) (xs ys : List (List UInt8)) :
    b.decodings cbc codec (xs ++ ys) =
      b.decodings cbc codec xs ++ b.decodings cbc (b.codecAfter cbc codec xs) ys := by
  induction xs generalizing codec with
  | nil => rfl
  | cons x xs ih =>
    rw [List.cons_append, decodings, ih, decodings, List.append_assoc]
    rfl

/-- Nothing waits in the buffer, and the next packet without a sequence number continues
it. The settings are those of `origin`. -/
structure Drained {δ : Type} (origin : RaopBuffer δ) (codec : Codec δ) (b : RaopBuffer δ) :
    Prop where
  aes : b.aes = origin.aes
  capacity : b.frameCapacity = origin.frameCapacity
  codec : b.codec = codec
  free : ∀ i, (b.entryAt i).available = false
  room : ∀ i, (b.entryAt i).audioBuffer.length = origin.frameCapacity
  window : b.isEmpty = true ∨ b.firstSeqnum = b.lastSeqnum + 1

/-- A decoded frame fits the slot. -/
theorem length_decode_le {capacity room : Nat} {payload : List UInt8} {codec : Codec δ}
    {samples : List Sample} (decoded : (codec.decode capacity room payload).2 = .samples samples) :
    samples.length ≤ room := by
  cases codec with
  | alac config decoder =>
    simp only [Codec.decode] at decoded
    split at decoded
    · cases decoded
    · cases decoded
      exact List.length_take_le _ _
  | pcm config =>
    simp only [Codec.decode] at decoded
    split at decoded
    · cases decoded
    · split at decoded
      · cases decoded
      · cases decoded
        exact List.length_take_le _ _

theorem drained_build {rtpmap fmtp : String} {aes : Option AesSession} {b : RaopBuffer δ}
    (built : build rtpmap fmtp aes = some b) : Drained b b.codec b := by
  obtain ⟨⟨codec, frameCapacity, silenceSamples⟩, _, made⟩ := Option.bind_eq_some_iff.mp built
  cases made
  refine ⟨rfl, rfl, rfl, ?_, ?_, .inl rfl⟩
  · intro i
    simp [fresh, entryAt]
  · intro i
    simp [fresh, entryAt]

end RaopBuffer

namespace RaopBuffer.Drained

variable {δ : Type} {origin b : RaopBuffer δ} {codec : Codec δ} {packet : List UInt8}

variable (h : Drained origin codec b)
include h

/-- A packet without a sequence number gets the one that is due. -/
theorem packetSeqnum (packet : List UInt8) : b.packetSeqnum packet false = b.firstSeqnum := by
  rw [RaopBuffer.packetSeqnum, if_neg Bool.false_ne_true]
  split
  · rfl
  · rename_i nonempty
    exact (h.window.resolve_left nonempty).symm

/-- A drained buffer has nothing to play. -/
theorem dequeue (noResend : Bool) : b.dequeue noResend = (b, none) := by
  rw [RaopBuffer.dequeue]
  apply if_pos
  rcases h.window with empty | next
  · exact .inl empty
  · right
    rw [next]
    simp only [seqnumCmp, BitVec.toInt_eq_toNat_cond, BitVec.toNat_sub, BitVec.toNat_add,
      BitVec.reduceToNat]
    omega

/-- Clearing the slot of the next packet changes nothing. -/
theorem clear (i : Fin raopBufferLength) :
    Drained origin codec (b.setEntry i (b.entryAt i).clear) := by
  refine ⟨h.aes, h.capacity, h.codec, ?_, ?_, h.window⟩
  · intro j
    rw [entryAt_setEntry]
    split
    · rfl
    · exact h.free j
  · intro j
    rw [entryAt_setEntry]
    split
    · exact h.room i
    · exact h.room j

/-- Decoding changes the codec and the length of silent frames. -/
theorem withCodec (next : Codec δ) (silence : Nat) :
    Drained origin next { b with codec := next, silenceSamples := silence } :=
  ⟨h.aes, h.capacity, rfl, h.free, h.room, h.window⟩

omit h in
/-- The frame of the packet that is due makes up the whole window. -/
theorem updateWindow (window : b.isEmpty = true ∨ b.firstSeqnum = b.lastSeqnum + 1) :
    b.updateWindow b.firstSeqnum =
      { b with lastSeqnum := b.firstSeqnum, isEmpty := false } := by
  have equal : ¬ 0 < seqnumCmp b.firstSeqnum b.firstSeqnum := by
    rw [seqnumCmp_eq_zero.mpr rfl]
    exact lt_irrefl 0
  rw [RaopBuffer.updateWindow]
  cases empty : b.isEmpty with
  | true =>
    rw [if_pos rfl]
    exact if_neg equal
  | false =>
    have next : b.firstSeqnum = b.lastSeqnum + 1 :=
      window.resolve_left (by simp [empty])
    have newer : 0 < seqnumCmp b.firstSeqnum b.lastSeqnum := by
      rw [next]
      simp only [seqnumCmp, BitVec.toInt_eq_toNat_cond, BitVec.toNat_sub, BitVec.toNat_add,
        BitVec.reduceToNat]
      omega
    rw [if_neg Bool.false_ne_true, if_pos newer, ← empty]

omit h in
/-- A frame that is due and available is played. -/
theorem dequeue_available {b : RaopBuffer δ} (nonempty : b.isEmpty = false)
    (due : 0 < seqnumCmp b.lastSeqnum b.firstSeqnum + 1)
    (available : (b.entryAt (slot b.firstSeqnum)).available = true) (noResend : Bool) :
    b.dequeue noResend =
      ({ b.setEntry (slot b.firstSeqnum) (b.entryAt (slot b.firstSeqnum)).clear with
          firstSeqnum := b.firstSeqnum + 1 },
        some ((b.entryAt (slot b.firstSeqnum)).audioBuffer.take
          (b.entryAt (slot b.firstSeqnum)).audioBufferLen)) := by
  have pending : ¬ (b.isEmpty = true ∨ seqnumCmp b.lastSeqnum b.firstSeqnum + 1 ≤ 0) := by
    rw [nonempty]
    simpa using due
  have ready : ¬ ((!noResend) = true ∧ (!(b.entryAt (slot b.firstSeqnum)).available) = true ∧
      seqnumCmp b.lastSeqnum b.firstSeqnum + 1 < raopBufferLength) := by
    rw [available]
    simp
  rw [RaopBuffer.dequeue, if_neg pending, if_neg ready, if_pos available]

omit h in
/-- Taking the one available frame of a window drains the buffer. -/
theorem of_take {next : BitVec 16} (aes : b.aes = origin.aes)
    (capacity : b.frameCapacity = origin.frameCapacity) (sameCodec : b.codec = codec)
    {i : Fin raopBufferLength} (free : ∀ j, j ≠ i → (b.entryAt j).available = false)
    (room : ∀ j, (b.entryAt j).audioBuffer.length = origin.frameCapacity)
    (window : next = b.lastSeqnum + 1) :
    Drained origin codec
      { b.setEntry i (b.entryAt i).clear with firstSeqnum := next } := by
  refine ⟨aes, capacity, sameCodec, ?_, ?_, .inr window⟩
  · intro j
    show ((b.setEntry i (b.entryAt i).clear).entryAt j).available = false
    rw [entryAt_setEntry]
    split
    · rfl
    · exact free j ‹_›
  · intro j
    show ((b.setEntry i (b.entryAt i).clear).entryAt j).audioBuffer.length = _
    rw [entryAt_setEntry]
    split
    · exact room i
    · exact room j

/-- Playing a frame that was stored in the slot that is due drains the buffer. -/
theorem dequeue_stored (packet : List UInt8)
    {samples : List Sample} (fits : samples.length ≤ origin.frameCapacity) :
    ∃ b', ((b.store packet b.firstSeqnum samples).updateWindow b.firstSeqnum).dequeue true =
        (b', some samples) ∧ Drained origin codec b' := by
  obtain ⟨available, -, taken⟩ := entryAt_store_same b packet b.firstSeqnum samples
  have free (i : Fin raopBufferLength) (other : i ≠ slot b.firstSeqnum) :
      ((b.store packet b.firstSeqnum samples).entryAt i).available = false := by
    rw [entryAt_store_other other]
    exact h.free i
  have room (i : Fin raopBufferLength) :
      ((b.store packet b.firstSeqnum samples).entryAt i).audioBuffer.length =
        origin.frameCapacity := by
    by_cases same : i = slot b.firstSeqnum
    · have before := h.room (slot b.firstSeqnum)
      simp only [same, store, entryAt_setEntry, if_true, List.length_append, List.length_drop]
      omega
    · rw [entryAt_store_other same]
      exact h.room i
  have window : (b.store packet b.firstSeqnum samples).updateWindow b.firstSeqnum =
      { b.store packet b.firstSeqnum samples with
        lastSeqnum := b.firstSeqnum, isEmpty := false } := updateWindow h.window
  generalize stored : (b.store packet b.firstSeqnum samples).updateWindow b.firstSeqnum = b'
    at window
  have first : b'.firstSeqnum = b.firstSeqnum := by rw [window]; rfl
  have last : b'.lastSeqnum = b.firstSeqnum := by rw [window]
  have nonempty : b'.isEmpty = false := by rw [window]
  have settings : b'.aes = b.aes ∧ b'.frameCapacity = b.frameCapacity ∧ b'.codec = b.codec := by
    rw [window]
    exact ⟨rfl, rfl, rfl⟩
  have entries (i : Fin raopBufferLength) :
      b'.entryAt i = (b.store packet b.firstSeqnum samples).entryAt i := by
    rw [← stored, updateWindow_entryAt]
  have due : 0 < seqnumCmp b'.lastSeqnum b'.firstSeqnum + 1 := by
    rw [first, last, seqnumCmp_eq_zero.mpr rfl]
    exact Int.one_pos
  have ready : (b'.entryAt (slot b'.firstSeqnum)).available = true := by
    rw [entries, first]
    exact available
  have frame : (b'.entryAt (slot b'.firstSeqnum)).audioBuffer.take
      (b'.entryAt (slot b'.firstSeqnum)).audioBufferLen = samples := by
    rw [entries, first]
    exact taken
  refine ⟨{ b'.setEntry (slot b'.firstSeqnum) (b'.entryAt (slot b'.firstSeqnum)).clear with
    firstSeqnum := b'.firstSeqnum + 1 }, ?_, of_take (settings.1.trans h.aes)
    (settings.2.1.trans h.capacity) (settings.2.2.trans h.codec) ?_ ?_ ?_⟩
  · rw [dequeue_available nonempty due ready true, frame]
  · intro i other
    rw [entries]
    rw [first] at other
    exact free i other
  · intro i
    rw [entries]
    exact room i
  · rw [first, last]

section Queue

variable [AlacDecode δ] (cbc : AesSession → List UInt8 → List UInt8)

/-- A packet with a header is decoded into the slot that is due. -/
theorem queue (whole : 12 ≤ packet.length) (small : packet.length ≤ raopPacketLen) :
    b.queue cbc packet false =
      (b.setEntry (slot b.firstSeqnum) (b.entryAt (slot b.firstSeqnum)).clear).fillSlot cbc packet
        b.firstSeqnum := by
  have notStale : ¬ b.isStale b.firstSeqnum = true := by
    simp [isStale, seqnumCmp_eq_zero.mpr]
  have near : ¬ b.isFarAhead b.firstSeqnum = true := by
    have ahead :
        seqnumCmp b.firstSeqnum (b.firstSeqnum + BitVec.ofNat 16 raopBufferLength) < 0 := by
      simp only [seqnumCmp, raopBufferLength, BitVec.toInt_eq_toNat_cond, BitVec.toNat_sub,
        BitVec.toNat_add, BitVec.toNat_ofNat]
      omega
    simp [isFarAhead, ahead]
  have unavailable : ¬ ((b.entryAt (slot b.firstSeqnum)).available &&
      seqnumCmp (b.entryAt (slot b.firstSeqnum)).seqnum b.firstSeqnum = 0) = true := by
    simp [h.free]
  rw [RaopBuffer.queue, if_neg (not_not.mpr ⟨whole, small⟩), h.packetSeqnum]
  dsimp only
  rw [if_neg notStale, if_neg near, queueInWindow]
  exact if_neg unavailable

/-- What decoding into the slot that is due amounts to. -/
theorem decodePacket (packet : List UInt8) :
    (b.setEntry (slot b.firstSeqnum) (b.entryAt (slot b.firstSeqnum)).clear).decodePacket cbc
        packet b.firstSeqnum =
      codec.decode origin.frameCapacity origin.frameCapacity
        (origin.decryptPayload cbc (packet.drop 12)) := by
  rw [decodePacket_setEntry cbc b packet b.firstSeqnum (b.entryAt (slot b.firstSeqnum)).clear rfl,
    RaopBuffer.decodePacket, h.codec, h.capacity, h.room, RaopBuffer.decryptPayload, h.aes]
  rfl

/-- What queueing a packet leaves to be played: nothing, or the frame it decodes to. -/
theorem queue_outcome (small : packet.length ≤ raopPacketLen) :
    ((origin.decoding cbc codec packet).2 = none ∧
        Drained origin (origin.decoding cbc codec packet).1 (b.queue cbc packet false).1) ∨
      ∃ samples b', (origin.decoding cbc codec packet).2 = some samples ∧
        (b.queue cbc packet false).1.dequeue true = (b', some samples) ∧
        Drained origin (origin.decoding cbc codec packet).1 b' := by
  rw [decoding]
  by_cases short : packet.length < 12
  · -- the buffer refuses a packet without a whole header
    rw [if_pos short, RaopBuffer.queue, if_pos (by omega)]
    exact .inl ⟨rfl, h⟩
  · have cleared := h.clear (slot b.firstSeqnum)
    rw [if_neg short, h.queue cbc (by omega) small, fillSlot, h.decodePacket cbc]
    cases decoded : codec.decode origin.frameCapacity origin.frameCapacity
        (origin.decryptPayload cbc (packet.drop 12)) with
    | mk next result =>
      cases result with
      | rejected code => exact .inl ⟨rfl, cleared.withCodec next _⟩
      | samples samples =>
        have fits : samples.length ≤ origin.frameCapacity :=
          length_decode_le (congrArg Prod.snd decoded)
        obtain ⟨b', played, drained⟩ := (cleared.withCodec next
          (next.nextSilence b.silenceSamples samples)).dequeue_stored packet fits
        exact .inr ⟨samples, b', rfl, played, drained⟩

end Queue

end RaopBuffer.Drained

namespace Player

variable {δ ρ : Type} [StreamResample ρ] {origin : RaopBuffer δ} {codec : Codec δ}
  {p : Player δ ρ}

theorem playLoop_drained (h : RaopBuffer.Drained origin codec p.buffer) (rounds : Nat) :
    p.playLoop true rounds = (p, []) := by
  cases rounds with
  | zero => rfl
  | succ rounds => rw [playLoop, h.dequeue]

theorem playLoop_single (plain : p.resampler = none) {b' : RaopBuffer δ} {samples : List Sample}
    (played : p.buffer.dequeue true = (b', some samples))
    (drained : RaopBuffer.Drained origin codec b') (rounds : Nat) :
    p.playLoop true (rounds + 1) = ({ p with buffer := b' }, [.audioProcess samples]) := by
  have passed : process { p with buffer := b' } samples =
      ({ p with buffer := b' }, .audioProcess samples) := by
    rw [process, plain]
  rw [playLoop, played]
  dsimp only
  rw [passed, playLoop_drained drained]

end Player

namespace TcpTask

open RaopBuffer (Drained decodings silentAlac)

variable {δ ρ : Type} [AlacDecode δ] [StreamResample ρ] (cbc : AesSession → List UInt8 → List UInt8)

section Plain

variable {origin : RaopBuffer δ} {codec : Codec δ} {t : TcpTask δ ρ}

/-- A packet is played at once if it decodes, and leaves the buffer drained. -/
theorem receive_run (plain : t.player.resampler = none) (h : Drained origin codec t.player.buffer)
    {packet : List UInt8} (small : packet.length ≤ raopPacketLen) :
    ∃ b', t.receive cbc packet =
        ({ t with player := { t.player with buffer := b' } },
          (origin.decoding cbc codec packet).2.toList.map SessionCall.audioProcess) ∧
      Drained origin (origin.decoding cbc codec packet).1 b' := by
  rw [receive]
  rcases h.queue_outcome cbc small with ⟨nothing, drained⟩ | ⟨samples, b', frame, played, drained⟩
  · refine ⟨(t.player.buffer.queue cbc packet false).1, ?_, drained⟩
    rw [nothing, Player.play, Player.playLoop_drained drained]
    rfl
  · refine ⟨b', ?_, drained⟩
    have once := Player.playLoop_single
      (p := { t.player with buffer := (t.player.buffer.queue cbc packet false).1 }) plain played
      drained
    rw [frame, Player.play, once]
    rfl

/-- What the loop does with the bytes it holds is what the format says about them. -/
theorem deframeLoop_succ (rounds : Nat) (t : TcpTask δ ρ) :
    deframeLoop cbc (rounds + 1) t =
      match interleaved.next t.packetBuf with
      | .more => (t, [])
      | .stop => ({ t with packetBuf := [], ended := some .oversizedFrame }, [])
      | .skip n => deframeLoop cbc rounds { t with packetBuf := t.packetBuf.drop n }
      | .item packet n =>
        let received := t.receive cbc packet
        let rest := deframeLoop cbc rounds
          { received.1 with packetBuf := t.packetBuf.drop n }
        (rest.1, received.2 ++ rest.2) := by
  rw [deframeLoop]
  rcases nextPacket_cases t.packetBuf with ⟨short, more⟩ | ⟨dollar, channel, hi, lo, rest, bytes⟩
  · have verdict : interleaved.next t.packetBuf = .more := more
    rw [if_pos short, verdict]
  · have len : rtpLen t.packetBuf = hi.toNat * 256 + lo.toNat := by
      have low := UInt8.toNat_lt lo
      rw [bytes, rtpLen]
      show hi.toNat <<< 8 ||| lo.toNat = _
      rw [← Nat.shiftLeft_add_eq_or_of_lt low, Nat.shiftLeft_eq]
    have count : t.packetBuf.length = rest.length + 4 := by rw [bytes]; rfl
    have whole : ¬ t.packetBuf.length < 4 := by omega
    have first : t.packetBuf.getD 0 0 = dollar := by rw [bytes]; rfl
    have second : t.packetBuf.getD 1 0 = channel := by rw [bytes]; rfl
    have behind : t.packetBuf.drop 4 = rest := by rw [bytes]; rfl
    rw [if_neg whole, first, second, len, behind]
    by_cases other : dollar ≠ 0x24 ∨ channel ≠ 0
    · have verdict : interleaved.next t.packetBuf = .skip 1 := by
        show nextPacket t.packetBuf = _
        rw [bytes, nextPacket, if_pos other]
      rw [if_pos other, verdict]
    · rw [if_neg other]
      by_cases large : raopPacketLen < hi.toNat * 256 + lo.toNat
      · have verdict : interleaved.next t.packetBuf = .stop := by
          show nextPacket t.packetBuf = _
          rw [bytes, nextPacket, if_neg other, if_pos large]
        rw [if_pos large, verdict]
      · rw [if_neg large]
        by_cases short : rest.length < hi.toNat * 256 + lo.toNat
        · have verdict : interleaved.next t.packetBuf = .more := by
            show nextPacket t.packetBuf = _
            rw [bytes, nextPacket, if_neg other, if_neg large, if_pos short]
          rw [if_pos (by omega), verdict]
        · have verdict : interleaved.next t.packetBuf = .item
              (rest.take (hi.toNat * 256 + lo.toNat)) (4 + (hi.toNat * 256 + lo.toNat)) := by
            show nextPacket t.packetBuf = _
            rw [bytes, nextPacket, if_neg other, if_neg large, if_neg short]
          rw [if_neg (by omega), verdict]

/-- The loop plays the frames of the packets it finds. -/
theorem deframeLoop_run {bytes : List UInt8} {scan : Scan UInt8 (List UInt8)}
    (scans : interleaved.Scans bytes scan) {rounds : Nat} (enough : bytes.length ≤ rounds)
    (held : t.packetBuf = bytes) (plain : t.player.resampler = none)
    (h : Drained origin codec t.player.buffer) :
    ∃ b', deframeLoop cbc rounds t =
        ({ t with
            player := { t.player with buffer := b' }
            packetBuf := if scan.stopped then [] else scan.rest
            ended := if scan.stopped then some .oversizedFrame else t.ended },
          (origin.decodings cbc codec scan.items).map .audioProcess) ∧
      Drained origin (origin.codecAfter cbc codec scan.items) b' := by
  induction scans generalizing rounds t codec with
  | more more =>
    refine ⟨t.player.buffer, ?_, h⟩
    cases rounds with
    | zero =>
      rw [deframeLoop, ← held]
      rfl
    | succ rounds =>
      rw [deframeLoop_succ, held, more, ← held]
      rfl
  | stop stop =>
    refine ⟨t.player.buffer, ?_, h⟩
    obtain ⟨rounds, rfl⟩ : ∃ n, rounds = n + 1 := by
      refine Nat.exists_eq_succ_of_ne_zero fun zero => ?_
      rw [zero, Nat.le_zero, List.length_eq_zero_iff] at enough
      rw [enough] at stop
      cases stop
    rw [deframeLoop_succ, held, stop]
    rfl
  | skip skip _ ih =>
    obtain ⟨positive, inside⟩ := interleaved.skip_pos skip
    obtain ⟨rounds, rfl⟩ : ∃ n, rounds = n + 1 :=
      Nat.exists_eq_succ_of_ne_zero (by omega)
    rw [deframeLoop_succ, held, skip]
    exact ih (t := { t with packetBuf := _ }) (by rw [List.length_drop]; omega) rfl plain h
  | @item xs packet n scan item _ ih =>
    obtain ⟨positive, inside⟩ := interleaved.item_pos item
    obtain ⟨rounds, rfl⟩ : ∃ n, rounds = n + 1 :=
      Nat.exists_eq_succ_of_ne_zero (by omega)
    obtain ⟨b₁, received, drained⟩ := receive_run cbc plain h (length_of_item item)
    have shorter : (xs.drop n).length ≤ rounds := by
      rw [List.length_drop]
      omega
    obtain ⟨b₂, rest, final⟩ :=
      ih (t := { t with player := { t.player with buffer := b₁ }, packetBuf := _ }) shorter rfl plain drained
    refine ⟨b₂, ?_, final⟩
    rw [deframeLoop_succ, held, item]
    dsimp only
    rw [received]
    dsimp only
    rw [rest, decodings, List.map_append]

/-- The task after a stream: it has played the frames of the packets of the stream, and it
waits for the rest of a packet unless an oversized frame has ended it. -/
structure After (origin : RaopBuffer δ) (stream : List UInt8) (t : TcpTask δ ρ)
    (calls : List SessionCall) : Prop where
  played : calls = (origin.decodings cbc origin.codec (packetsOf stream)).map .audioProcess
  plain : t.player.resampler = none
  quiet : t.flush = noFlush
  stopped : (interleaved.scan stream).stopped = true → t.ended = some .oversizedFrame
  waits : (interleaved.scan stream).stopped = false →
    t.ended = none ∧ t.packetBuf = (interleaved.scan stream).rest ∧
      Drained origin (origin.codecAfter cbc origin.codec (packetsOf stream)) t.player.buffer

omit [StreamResample ρ] in
theorem after_start {b : RaopBuffer δ} (drained : Drained b b.codec b) :
    After cbc b [] (start b (none : Option ρ)) [] where
  played := rfl
  plain := rfl
  quiet := rfl
  stopped := fun stopped => absurd stopped (by decide)
  waits := fun _ => ⟨rfl, rfl, drained⟩

/-- A read of at most 4096 bytes extends the stream. -/
theorem After.read {stream bytes : List UInt8} {calls : List SessionCall}
    (h : After cbc origin stream t calls) (nonempty : 1 ≤ bytes.length)
    (size : bytes.length ≤ 4096) :
    After cbc origin (stream ++ bytes) (t.step cbc (.iteration (.read bytes))).1
      (calls ++ (t.step cbc (.iteration (.read bytes))).2) := by
  have first := Deframer.scans_scan (d := interleaved) stream
  cases stopped : (interleaved.scan stream).stopped with
  | true =>
    -- an ended task does nothing, and the rest of the stream has no packets
    have whole := (first.append_stopped stopped bytes).scan_eq
    have ended := h.stopped stopped
    have same : packetsOf (stream ++ bytes) = packetsOf stream := by
      rw [packetsOf, whole]
      rfl
    have still : t.step cbc (.iteration (.read bytes)) = (t, []) := by
      rw [step, ended]
      rfl
    rw [still, List.append_nil]
    refine ⟨by rw [same]; exact h.played, h.plain, h.quiet, fun _ => ended, fun goes => ?_⟩
    rw [whole] at goes
    cases stopped.symm.trans goes
  | false =>
    obtain ⟨running, held, drained⟩ := h.waits stopped
    have second := Deframer.scans_scan (d := interleaved) ((interleaved.scan stream).rest ++ bytes)
    have whole := (first.append stopped second).scan_eq
    have short : (interleaved.scan stream).rest.length < 4 + raopPacketLen :=
      length_of_more (first.waits stopped)
    have within : ¬ raopPacketLen * 4 < (t.packetBuf ++ bytes).length := by
      rw [held, List.length_append]
      simp only [raopPacketLen] at short ⊢
      omega
    have given : bytes ≠ [] := by
      rintro rfl
      exact absurd nonempty (by decide)
    have reads : t.step cbc (.iteration (.read bytes)) = deframeLoop cbc
        (t.packetBuf ++ bytes).length { t with packetBuf := t.packetBuf ++ bytes } := by
      have alive : ¬ t.ended.isSome = true := by
        rw [running]
        exact Bool.false_ne_true
      rw [step, if_neg alive, drainFlush, if_neg (not_not.mpr h.quiet)]
      dsimp only
      rw [handle, if_neg given, readBytes, if_neg within, List.nil_append]
    rw [held] at reads
    obtain ⟨b', loop, final⟩ := deframeLoop_run cbc (t := { t with packetBuf := _ }) second
      (Nat.le_refl _) rfl h.plain drained
    have packets : packetsOf (stream ++ bytes) = packetsOf stream ++
        (interleaved.scan ((interleaved.scan stream).rest ++ bytes)).items := by
      rw [packetsOf, whole]
      rfl
    have ends : (interleaved.scan (stream ++ bytes)).stopped =
        (interleaved.scan ((interleaved.scan stream).rest ++ bytes)).stopped := by
      rw [whole]
    have rest : (interleaved.scan (stream ++ bytes)).rest =
        (interleaved.scan ((interleaved.scan stream).rest ++ bytes)).rest := by
      rw [whole]
    rw [reads, loop]
    refine ⟨?_, h.plain, h.quiet, ?_, ?_⟩
    · rw [packets, RaopBuffer.decodings_append, List.map_append, h.played]
    · intro stops
      rw [ends] at stops
      exact if_pos stops
    · intro goes
      rw [rest, packets]
      rw [ends] at goes
      refine ⟨?_, ?_, ?_⟩
      · rw [goes]
        exact running
      · rw [goes]
        rfl
      · rw [RaopBuffer.codecAfter, List.foldl_append]
        exact final

end Plain

theorem After.run {origin : RaopBuffer δ} {t : TcpTask δ ρ} {stream : List UInt8}
    {calls : List SessionCall} (h : After cbc origin stream t calls) (reads : List (List UInt8))
    (sizes : ∀ r ∈ reads, 1 ≤ r.length ∧ r.length ≤ 4096) :
    After cbc origin (stream ++ reads.flatten)
      (Machine.run (step cbc) t (reads.map fun r => .iteration (.read r))).1
      (calls ++ (Machine.run (step cbc) t (reads.map fun r => .iteration (.read r))).2) := by
  induction reads generalizing stream t calls with
  | nil => simpa using h
  | cons r reads ih =>
    rw [List.forall_mem_cons] at sizes
    have next := ih (h.read cbc sizes.1.1 sizes.1.2) sizes.2
    rw [List.map_cons, Machine.run_cons, List.flatten_cons, ← List.append_assoc,
      ← List.append_assoc]
    exact next

/-- For every stream and every way it is cut into reads of 1 to 4096 bytes, without a flush
and without a resampler: the calls on the session are exactly the frames that the packets of
the stream decode to, in order, and the limit on the collected bytes is never hit. -/
theorem tcp_delivers_stream {rtpmap fmtp : String} {aes : Option AesSession} {b : RaopBuffer δ}
    (built : RaopBuffer.build rtpmap fmtp aes = some b) (reads : List (List UInt8))
    (sizes : ∀ r ∈ reads, 1 ≤ r.length ∧ r.length ≤ 4096) :
    let run := Machine.run (step cbc) (start b (none : Option ρ))
      (reads.map fun r => .iteration (.read r))
    run.2 = (b.decodings cbc b.codec (packetsOf reads.flatten)).map .audioProcess ∧
      run.1.ended ≠ some .safetyLimit := by
  intro run
  have after := (after_start cbc (ρ := ρ) (RaopBuffer.drained_build built)).run cbc reads sizes
  rw [List.nil_append, List.nil_append] at after
  refine ⟨after.played, fun limit => ?_⟩
  cases stopped : (interleaved.scan reads.flatten).stopped with
  | true => cases limit.symm.trans (after.stopped stopped)
  | false => cases limit.symm.trans (after.waits stopped).1

/-- A resampler that is never made. -/
@[reducible] def unresampled : StreamResample Unit where
  new _ _ _ := none
  process _ _ := ((), [])

/-- A byte that starts no frame and a frame of one packet, in two reads. -/
def splitReads : List (List UInt8) :=
  [[0x41, 0x24, 0, 0, 16, 0x80], (RaopBuffer.stereoPacket 0 7).drop 1]

/-- The buffer of a stereo `L16` stream. -/
def stereoBuffer : RaopBuffer Unit := .fresh none (.pcm ⟨2, 44100⟩) 16378 704

theorem tcp_delivers_stream_split :
    @RaopBuffer.build Unit silentAlac "96 L16/44100/2" "" none = some stereoBuffer ∧
      @decodings Unit silentAlac (fun _ block => block) stereoBuffer
        stereoBuffer.codec (packetsOf splitReads.flatten) = [[1 / 2, -1 / 2]] ∧
      let run := Machine.run
        (@step Unit Unit silentAlac unresampled fun _ block => block)
        (start stereoBuffer none) (splitReads.map fun r => .iteration (.read r))
      run.2 = (@decodings Unit silentAlac (fun _ block => block) stereoBuffer
          stereoBuffer.codec (packetsOf splitReads.flatten)).map .audioProcess ∧
        run.1.ended ≠ some .safetyLimit :=
  ⟨rfl, by decide +kernel,
    @tcp_delivers_stream Unit Unit silentAlac unresampled (fun _ block => block)
      "96 L16/44100/2" "" none stereoBuffer rfl splitReads (by decide)⟩

end TcpTask

end Shairplay.Raop
