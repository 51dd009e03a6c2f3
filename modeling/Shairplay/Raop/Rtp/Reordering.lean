import Shairplay.Raop.Rtp.Tcp
import Shairplay.Raop.Rtp.Udp

/-!
# Audio out of order

Packets of a sender that retransmits come in another order than they were sent, some of them
more than once, and some of them on the control socket. If none is 31 numbers ahead of one that
is missing, the task plays the stream as it was sent: every frame up to the first missing one,
in order, each once, and no silence. What came on the control socket plays with the next packet
of the data socket.

A packet of the stream is named by its place in it, so that the numbers may wrap around any
number of times.
-/

namespace Shairplay.Raop

open Lib Serial Machine
open RaopBuffer
open Shairplay.Codec (StreamResample passThrough)

variable {δ ρ : Type} [AlacDecode δ] {cbc : AesSession → List UInt8 → List UInt8}
  {origin b : RaopBuffer δ}

/-- What a sender sends, and what it decodes to in a buffer with the settings of `origin`. The
codec may change its state, but each packet decodes to its frame in every state that is
`ready`. -/
structure RtpStream (cbc : AesSession → List UInt8 → List UInt8) (origin : RaopBuffer δ) where
  first : BitVec 16
  packet : Nat → List UInt8
  frame : Nat → List Sample
  ready : Codec δ → Prop
  size : ∀ i, 12 ≤ (packet i).length ∧ retransmitHeaderLen + (packet i).length ≤ raopPacketLen
  numbered : ∀ i, rtpSeqnum (packet i) = first + BitVec.ofNat 16 i
  start : ready origin.codec
  decodes : ∀ i codec, ready codec → ∃ next, ready next ∧
    codec.decode origin.frameCapacity origin.frameCapacity
      (origin.decryptPayload cbc ((packet i).drop 12)) = (next, .samples (frame i))

namespace RtpStream

variable (stream : RtpStream cbc origin)

def number (i : Nat) : BitVec 16 := stream.first + BitVec.ofNat 16 i

theorem number_add (i n : Nat) : stream.number (i + n) = stream.number i + BitVec.ofNat 16 n := by
  rw [number, BitVec.ofNat_add, ← BitVec.add_assoc]
  rfl

theorem number_dist {i j : Nat} (le : i ≤ j) :
    dist (stream.number j) (stream.number i) = (j - i) % 2 ^ 16 := by
  obtain ⟨n, rfl⟩ := Nat.exists_eq_add_of_le le
  rw [number_add, dist_add_left, dist_self, Nat.zero_add, Nat.add_sub_cancel_left]

/-- An older packet is before a newer one, up to half a turn. -/
theorem number_lt {i j : Nat} (lt : i < j) (near : j ≤ i + 2 ^ 15) :
    seqnumCmp (stream.number i) (stream.number j) < 0 := by
  have forth := stream.number_dist lt.le
  have small : (j - i) % 2 ^ 16 = j - i := Nat.mod_eq_of_lt (by omega)
  have other : stream.number j ≠ stream.number i := by
    intro same
    rw [same, dist_self] at forth
    omega
  have turn := dist_add_dist other
  have back : dist (stream.number i) (stream.number j) =
      (stream.number i - stream.number j).toNat := rfl
  rw [seqnumCmp, BitVec.toInt_eq_toNat_cond]
  split <;> omega

/-- What waits in the buffer for a packet, if it has arrived. -/
def held (arrived : List Nat) (i : Nat) : Option (List Sample) :=
  if i ∈ arrived then some (stream.frame i) else none

/-- Settings under which packets decode to their frames. -/
structure Configured (b : RaopBuffer δ) : Prop where
  aes : b.aes = origin.aes
  capacity : b.frameCapacity = origin.frameCapacity
  ready : stream.ready b.codec
  room : ∀ i, (b.entryAt i).audioBuffer.length = origin.frameCapacity

/-- Packets `due` to `newest` are in the window; those before have been played. -/
structure Playing (arrived : List Nat) (due newest : Nat) (b : RaopBuffer δ) : Prop
    extends stream.Configured b where
  window : b.Window
  nonempty : b.isEmpty = false
  first : b.firstSeqnum = stream.number due
  last : b.lastSeqnum = stream.number newest
  pending : due ≤ newest + 1 ∧ newest < due + 31
  played : ∀ i < due, i ∈ arrived
  bound : ∀ i ∈ arrived, i ≤ newest
  waiting : ∀ s, b.waiting s = stream.held arrived (due + dist s b.firstSeqnum)

variable {stream}

section Buffer

variable {arrived : List Nat} {due newest : Nat}

theorem Configured.decodePacket (h : stream.Configured b) (i : Nat) (s : BitVec 16) :
    ∃ next, stream.ready next ∧
      b.decodePacket cbc (stream.packet i) s = (next, .samples (stream.frame i)) := by
  obtain ⟨next, ready, decoded⟩ := stream.decodes i b.codec h.ready
  have payload : b.decryptPayload cbc ((stream.packet i).drop 12) =
      origin.decryptPayload cbc ((stream.packet i).drop 12) := by
    rw [decryptPayload, decryptPayload, h.aes]
  refine ⟨next, ready, ?_⟩
  rw [RaopBuffer.decodePacket, h.capacity, h.room, payload, decoded]

theorem Configured.setEntry (h : stream.Configured b) {j : Fin raopBufferLength} {e : BufferEntry}
    (room : e.audioBuffer.length = origin.frameCapacity) : stream.Configured (b.setEntry j e) := by
  refine ⟨h.aes, h.capacity, h.ready, ?_⟩
  intro i
  rw [entryAt_setEntry]
  split
  · exact room
  · exact h.room i

theorem Configured.withCodec (h : stream.Configured b) {codec : Codec δ}
    (ready : stream.ready codec) (silenceSamples : Nat) :
    stream.Configured { b with codec, silenceSamples } :=
  ⟨h.aes, h.capacity, ready, h.room⟩

theorem Configured.updateWindow (h : stream.Configured b) (s : BitVec 16) :
    stream.Configured (b.updateWindow s) := by
  simp only [RaopBuffer.updateWindow]
  split <;> split <;> exact ⟨h.aes, h.capacity, h.ready, h.room⟩

theorem length_frame (stream : RtpStream cbc origin) (i : Nat) :
    (stream.frame i).length ≤ origin.frameCapacity := by
  obtain ⟨next, -, decoded⟩ := stream.decodes i _ stream.start
  exact length_decode_le (congrArg Prod.snd decoded)

theorem Configured.store (h : stream.Configured b) (i : Nat) (s : BitVec 16) :
    stream.Configured (b.store (stream.packet i) s (stream.frame i)) := by
  apply h.setEntry
  have fits := stream.length_frame i
  rw [List.length_append, List.length_drop, h.room]
  omega

theorem Configured.accepting (h : stream.Configured b) (i : Nat) (s : BitVec 16) {codec : Codec δ}
    (ready : stream.ready codec) :
    stream.Configured (b.accepting (stream.packet i) s codec (stream.frame i)) := by
  have cleared : stream.Configured (b.setEntry (slot s) (b.entryAt (slot s)).clear) :=
    h.setEntry (h.room _)
  exact ((cleared.withCodec ready _).store i s).updateWindow s

theorem Configured.flush (h : stream.Configured b) (s : BitVec 16) :
    stream.Configured (b.flush s.toNat) := by
  have room (i) : ((b.flush s.toNat).entryAt i).audioBuffer.length = origin.frameCapacity := by
    rw [entryAt_flush]
    exact h.room i
  rw [flush_toNat] at room ⊢
  exact ⟨h.aes, h.capacity, h.ready, room⟩

omit [AlacDecode δ] in
/-- A decoded packet in a free slot waits there. -/
theorem accepting_waits (window : b.Window) {s : BitVec 16}
    (free : (b.entryAt (slot s)).available = false)
    (inside : b.isEmpty = true ∨ dist s b.firstSeqnum < 32) (data : List UInt8) (codec : Codec δ)
    (samples : List Sample) :
    (b.accepting data s codec samples).Window ∧ ∀ t,
      (b.accepting data s codec samples).waiting t =
        Function.update b.waiting s (some samples) t := by
  have cleared : (b.setEntry (slot s) (b.entryAt (slot s)).clear).Represents ⟨b.waiting, none⟩ :=
    window.represents.clear free rfl
  have replaced : Represents
      { b.setEntry (slot s) (b.entryAt (slot s)).clear with
        codec, silenceSamples := codec.nextSilence b.silenceSamples samples } ⟨b.waiting, none⟩ :=
    cleared.congr rfl rfl rfl rfl
  have empty : ((b.setEntry (slot s) (b.entryAt (slot s)).clear).entryAt (slot s)).available =
      false := by
    rw [entryAt_setEntry, if_pos rfl]
    rfl
  have stored : (b.accepting data s codec samples).Represents
      ⟨Function.update b.waiting s (some samples), none⟩ := replaced.accept empty inside
  exact ⟨stored.window, fun t => (stored.frames t).symm⟩

/-- A packet of which the slot does not hold it already is decoded into the slot. -/
theorem queueInWindow_accepts {data : List UInt8} {s : BitVec 16} {codec : Codec δ}
    {samples : List Sample}
    (other : ¬ ((b.entryAt (slot s)).available = true ∧ (b.entryAt (slot s)).seqnum = s))
    (decoded : b.decodePacket cbc data s = (codec, .samples samples)) :
    b.queueInWindow cbc data s = (b.accepting data s codec samples, 1) := by
  have same := decodePacket_setEntry cbc b data s (b.entryAt (slot s)).clear rfl
  simp only [queueInWindow, Bool.and_eq_true, decide_eq_true_eq, seqnumCmp_eq_zero]
  rw [if_neg other, fillSlot, same, decoded]
  rfl

/-- Neither stale nor far ahead. -/
theorem near_of_dist {s first : BitVec 16} (inside : dist s first < 32) :
    ¬ seqnumCmp s first < 0 ∧ ¬ 0 ≤ seqnumCmp s (first + BitVec.ofNat 16 raopBufferLength) := by
  simp only [seqnumCmp, raopBufferLength, Serial.dist, BitVec.toInt_eq_toNat_cond,
    BitVec.toNat_sub, BitVec.toNat_add, BitVec.toNat_ofNat] at *
  omega

/-- What becomes of a packet of the stream. -/
theorem queue_packet (b : RaopBuffer δ) (i : Nat) :
    b.queue cbc (stream.packet i) true =
      if b.isStale (stream.number i) then (b, 0)
      else if b.isFarAhead (stream.number i) then
        (b.flush (stream.number i).toNat).queueInWindow cbc (stream.packet i) (stream.number i)
      else b.queueInWindow cbc (stream.packet i) (stream.number i) := by
  have number : b.packetSeqnum (stream.packet i) true = stream.number i := stream.numbered i
  have size := stream.size i
  rw [queue, if_neg (not_not_intro ⟨size.1, by omega⟩), number]

namespace Playing

section

variable (h : stream.Playing arrived due newest b)
include h

theorem dist_newest :
    dist (b.lastSeqnum + 1) b.firstSeqnum = newest + 1 - due := by
  have next : b.lastSeqnum + 1 = stream.number (newest + 1) := by
    rw [h.last]
    exact (stream.number_add newest 1).symm
  have pending := h.pending
  rw [next, h.first, stream.number_dist pending.1]
  omega

theorem buflen :
    seqnumCmp b.lastSeqnum b.firstSeqnum + 1 = (newest + 1 - due : Nat) := by
  have pending := h.pending
  rw [buflen_eq, h.dist_newest]
  rw [h.dist_newest]
  omega

theorem dist_number {i : Nat} (after : due ≤ i) (near : i < due + 2 ^ 16) :
    dist (stream.number i) b.firstSeqnum = i - due := by
  rw [h.first, stream.number_dist after]
  omega

theorem waiting_number {i : Nat} (after : due ≤ i) (near : i < due + 2 ^ 16) :
    b.waiting (stream.number i) = stream.held arrived i := by
  rw [h.waiting, h.dist_number after near, Nat.add_sub_cancel' after]

/-- A packet that has arrived before changes nothing. -/
theorem again {i : Nat} (mem : i ∈ arrived) : stream.Playing (i :: arrived) due newest b := by
  have same (j : Nat) : j ∈ i :: arrived ↔ j ∈ arrived := by
    rw [List.mem_cons]
    exact or_iff_right_of_imp fun eq => eq ▸ mem
  refine { h with played := ?_, bound := ?_, waiting := ?_ }
  · intro j before
    exact (same j).mpr (h.played j before)
  · intro j arrived
    exact h.bound j ((same j).mp arrived)
  · intro s
    rw [h.waiting, held, held]
    simp only [same]

/-- The slot of a packet that has arrived and was not played. -/
theorem there {i : Nat} (after : due ≤ i) (mem : i ∈ arrived) :
    let e := b.entryAt (slot (stream.number i))
    (e.available = true ∧ e.seqnum = stream.number i) ∧
      e.audioBuffer.take e.audioBufferLen = stream.frame i := by
  have bound := h.bound i mem
  have waits := h.waiting_number after (by have := h.pending; omega)
  rw [held, if_pos mem, RaopBuffer.waiting] at waits
  split at waits
  · rename_i there
    exact ⟨there, Option.some.inj waits⟩
  · cases waits

theorem not_waiting {i : Nat} (after : due ≤ i) (near : i < due + 2 ^ 16) (missing : i ∉ arrived) :
    ¬ ((b.entryAt (slot (stream.number i))).available = true ∧
      (b.entryAt (slot (stream.number i))).seqnum = stream.number i) := by
  intro there
  have waits := h.waiting_number after near
  rw [RaopBuffer.waiting, if_pos there, held, if_neg missing] at waits
  cases waits

/-- A packet inside the window that has not arrived before. -/
theorem accept {i : Nat} (after : due ≤ i)
    (near : i < due + 31) (missing : i ∉ arrived) {codec : Codec δ} (ready : stream.ready codec) :
    stream.Playing (i :: arrived) due (max newest i)
      (b.accepting (stream.packet i) (stream.number i) codec (stream.frame i)) := by
  have place := h.dist_number after (by omega)
  have inside : dist (stream.number i) b.firstSeqnum < 32 := by omega
  have free := h.window.free (.inr inside) (h.not_waiting after (by omega) missing)
  obtain ⟨window, waits⟩ := accepting_waits h.window free (.inr inside) (stream.packet i) codec
    (stream.frame i)
  have ends := accepting_of_nonempty (stream.packet i) (stream.number i) codec
    (stream.frame i) h.nonempty
  have pending := h.pending
  have newer : 0 < seqnumCmp (stream.number i) b.lastSeqnum ↔ newest < i := by
    rw [newer_iff _ inside, h.dist_newest, place]
    · omega
    · rw [h.dist_newest]
      omega
  refine
    { toConfigured := h.toConfigured.accepting i _ ready
      window := window
      nonempty := updateWindow_isEmpty _ _
      first := ends.1.trans h.first
      last := ?_
      pending := by omega
      played := fun j before => List.mem_cons_of_mem i (h.played j before)
      bound := ?_
      waiting := ?_ }
  · rw [ends.2]
    by_cases beyond : newest < i
    · rw [if_pos (newer.mpr beyond), max_eq_right beyond.le]
    · rw [if_neg (mt newer.mp beyond), max_eq_left (Nat.le_of_not_lt beyond), h.last]
  · intro j mem
    rcases List.mem_cons.mp mem with rfl | mem
    · exact le_max_right _ _
    · exact (h.bound j mem).trans (le_max_left _ _)
  · intro s
    rw [waits, ends.1]
    by_cases same : s = stream.number i
    · rw [same, Function.update_self, place, Nat.add_sub_cancel' after, held,
        if_pos List.mem_cons_self]
    · have other : due + dist s b.firstSeqnum ≠ i := by
        intro eq
        apply same
        apply dist_inj
        rw [place, ← eq, Nat.add_sub_cancel_left]
      rw [Function.update_of_ne same, h.waiting, held, held]
      simp only [List.mem_cons, other, false_or]

theorem queue {i : Nat} (near : i < due + 31) (recent : due ≤ i + 2 ^ 15) :
    ∃ newest, stream.Playing (i :: arrived) due newest (b.queue cbc (stream.packet i) true).1 := by
  rw [queue_packet]
  by_cases after : due ≤ i
  · have inside : dist (stream.number i) b.firstSeqnum < 32 := by
      rw [h.dist_number after (by omega)]
      omega
    obtain ⟨fresh, close⟩ := near_of_dist inside
    rw [if_neg (by simp [isStale, fresh]), if_neg (by simp [isFarAhead, close])]
    by_cases mem : i ∈ arrived
    · have duplicate := (h.there after mem).1
      simp only [queueInWindow, Bool.and_eq_true, decide_eq_true_eq, seqnumCmp_eq_zero]
      rw [if_pos duplicate]
      exact ⟨newest, h.again mem⟩
    · obtain ⟨codec, ready, decoded⟩ := h.toConfigured.decodePacket i (stream.number i)
      rw [queueInWindow_accepts (h.not_waiting after (by omega) mem) decoded]
      exact ⟨_, h.accept after near mem ready⟩
  · -- the packet has been played
    have stale : b.isStale (stream.number i) = true := by
      have before := stream.number_lt (Nat.lt_of_not_le after) recent
      rw [isStale, h.nonempty, h.first]
      simpa using before
    rw [stale, if_pos rfl]
    exact ⟨newest, h.again (h.played i (Nat.lt_of_not_le after))⟩

/-- The window behind the frame that is due. -/
theorem take (mem : due ∈ arrived) :
    stream.Playing arrived (due + 1) newest
      { b.setEntry (slot b.firstSeqnum) (b.entryAt (slot b.firstSeqnum)).clear with
        firstSeqnum := b.firstSeqnum + 1 } := by
  have reaches := h.bound due mem
  have pending := h.pending
  have some : 0 < dist (b.lastSeqnum + 1) b.firstSeqnum := by
    rw [h.dist_newest]
    omega
  have rep := h.window.represents.take (e := (b.entryAt (slot b.firstSeqnum)).clear)
    h.nonempty some rfl
  have cleared : stream.Configured (b.setEntry (slot b.firstSeqnum)
      (b.entryAt (slot b.firstSeqnum)).clear) := h.toConfigured.setEntry (h.room _)
  refine
    { aes := cleared.aes, capacity := cleared.capacity, ready := cleared.ready
      room := cleared.room
      window := rep.window
      nonempty := h.nonempty
      first := ?_
      last := h.last
      pending := by omega
      played := ?_
      bound := h.bound
      waiting := ?_ }
  · show b.firstSeqnum + 1 = _
    rw [h.first]
    exact (stream.number_add due 1).symm
  · intro i before
    rcases Nat.lt_succ_iff_lt_or_eq.mp before with before | rfl
    · exact h.played i before
    · exact mem
  · intro s
    refine (rep.frames s).symm.trans ?_
    show Function.update b.waiting b.firstSeqnum none s =
      stream.held arrived (due + 1 + dist s (b.firstSeqnum + 1))
    by_cases same : s = b.firstSeqnum
    · -- a number that comes around the next time
      have step := dist_succ_self b.firstSeqnum
      have other : b.firstSeqnum + 1 ≠ b.firstSeqnum := by
        intro eq
        rw [eq, dist_self] at step
        cases step
      have turn := dist_add_dist other
      have later : due + 1 + dist b.firstSeqnum (b.firstSeqnum + 1) ∉ arrived := by
        intro mem
        have := h.bound _ mem
        omega
      rw [same, Function.update_self, held, if_neg later]
    · have ahead : 0 < dist s b.firstSeqnum :=
        Nat.pos_of_ne_zero fun zero => same (dist_eq_zero.mp zero)
      have moved : dist s (b.firstSeqnum + 1) = dist s b.firstSeqnum - 1 :=
        dist_add_right s b.firstSeqnum 1 ahead
      rw [Function.update_of_ne same, h.waiting, moved]
      congr 1
      omega

/-- The frame that is due is taken if its packet has arrived, and is waited for otherwise. -/
theorem dequeue :
    due ∈ arrived ∧ (∃ b', b.dequeue false = (b', some (stream.frame due)) ∧
      stream.Playing arrived (due + 1) newest b') ∨
    due ∉ arrived ∧ b.dequeue false = (b, none) := by
  have pending := h.pending
  have buflen := h.buflen
  by_cases mem : due ∈ arrived
  · have reaches := h.bound due mem
    obtain ⟨⟨available, -⟩, frame⟩ := h.there (Nat.le_refl due) mem
    rw [← h.first] at available frame
    refine .inl ⟨mem, _, ?_, h.take mem⟩
    rw [Drained.dequeue_available h.nonempty (by omega) available false, frame]
  · refine .inr ⟨mem, dequeue_waits (.inr ⟨rfl, ?_, ?_⟩)⟩
    · have other := h.not_waiting (Nat.le_refl due) (by omega) mem
      rw [← h.first] at other
      exact h.window.free (.inr (by simp)) other
    · rw [buflen, raopBufferLength]
      omega

end

theorem ofFirst (configured : stream.Configured b) (window : b.Window) (empty : b.isEmpty = true) :
    stream.Playing [0] 0 0 (b.queueInWindow cbc (stream.packet 0) (stream.number 0)).1 := by
  have free (i : Fin raopBufferLength) : (b.entryAt i).available = false := by
    by_contra available
    have := window.nonempty i (Bool.not_eq_false _ ▸ available)
    simp [empty] at this
  obtain ⟨codec, ready, decoded⟩ := configured.decodePacket 0 (stream.number 0)
  rw [queueInWindow_accepts (by simp [free]) decoded]
  obtain ⟨window, waits⟩ := accepting_waits window (free _) (.inl empty) (stream.packet 0) codec
    (stream.frame 0)
  obtain ⟨first, last⟩ := accepting_of_empty (stream.packet 0) (stream.number 0) codec
    (stream.frame 0) empty
  refine
    { toConfigured := configured.accepting 0 _ ready
      window := window
      nonempty := updateWindow_isEmpty _ _
      first := first
      last := last
      pending := by decide
      played := by simp
      bound := by simp
      waiting := ?_ }
  intro s
  rw [waits, first, Nat.zero_add, held]
  simp only [List.mem_singleton, dist_eq_zero]
  by_cases same : s = stream.number 0
  · rw [same, Function.update_self, if_pos rfl, dist_self]
  · rw [Function.update_of_ne same, if_neg same, RaopBuffer.waiting]
    simp [free]

theorem start (configured : stream.Configured b) (window : b.Window) (empty : b.isEmpty = true) :
    stream.Playing [0] 0 0 (b.queue cbc (stream.packet 0) true).1 := by
  rw [queue_packet, if_neg (by simp [isStale, empty])]
  split
  · -- the first number may look like a jump from the initial zero
    have flushed := (represents_flush b (stream.number 0).toNat).window
    refine ofFirst (configured.flush _) flushed ?_
    rw [flush_toNat]
    exact empty
  · exact ofFirst configured window empty

end Playing

end Buffer

section Play

variable [StreamResample ρ] {stream : RtpStream cbc origin} {arrived : List Nat}
  {due newest : Nat}

def frames (stream : RtpStream cbc origin) (i n : Nat) : List (List Sample) :=
  (List.range' i n).map stream.frame

theorem frames_append (stream : RtpStream cbc origin) (i m n : Nat) :
    stream.frames i (m + n) = stream.frames i m ++ stream.frames (i + m) n := by
  rw [frames, ← List.range'_append_1, List.map_append]
  rfl

/-- Pass one frame to the session. -/
def feed (p : Player δ ρ) (samples : List Sample) : Player δ ρ × List SessionCall :=
  ((p.process samples).1, [(p.process samples).2])

omit [AlacDecode δ] in
theorem process_withBuffer (p : Player δ ρ) (b : RaopBuffer δ) (samples : List Sample) :
    Player.process { p with buffer := b } samples =
      ({ (p.process samples).1 with buffer := b }, (p.process samples).2) := by
  obtain ⟨_, _ | _⟩ := p <;> rfl

omit [AlacDecode δ] in
theorem feed_withBuffer (p : Player δ ρ) (b : RaopBuffer δ) (samples : List (List Sample)) :
    run feed { p with buffer := b } samples =
      ({ (run feed p samples).1 with buffer := b }, (run feed p samples).2) := by
  refine @run_commutes _ _ _ feed (fun p : Player δ ρ => { p with buffer := b }) samples ?_ p
  intro p frame _
  rw [feed, process_withBuffer]
  rfl

theorem Playing.playLoop (rounds : Nat) {p : Player δ ρ}
    (h : stream.Playing arrived due newest p.buffer) :
    ∃ n b', stream.Playing arrived (due + n) newest b' ∧
      p.playLoop false rounds =
        ({ (run feed p (stream.frames due n)).1 with buffer := b' },
          (run feed p (stream.frames due n)).2) := by
  induction rounds generalizing p due with
  | zero => exact ⟨0, p.buffer, h, rfl⟩
  | succ rounds ih =>
    rw [Player.playLoop]
    rcases h.dequeue with ⟨-, b', taken, next⟩ | ⟨-, waits⟩
    · rw [taken]
      dsimp only
      rw [process_withBuffer]
      obtain ⟨n, c, playing, same⟩ :=
        ih (p := { (p.process (stream.frame due)).1 with buffer := b' }) next
      refine ⟨n + 1, c, ?_, ?_⟩
      · rw [Nat.add_comm n 1, ← Nat.add_assoc]
        exact playing
      · rw [same, feed_withBuffer]
        rfl
    · rw [waits]
      exact ⟨0, p.buffer, h, rfl⟩

/-- Playing goes on to the first packet that is missing. -/
theorem Playing.play {p : Player δ ρ} (h : stream.Playing arrived due newest p.buffer) :
    ∃ n b', stream.Playing arrived (due + n) newest b' ∧ due + n ∉ arrived ∧
      p.play false =
        ({ (run feed p (stream.frames due n)).1 with buffer := b' },
          (run feed p (stream.frames due n)).2) := by
  obtain ⟨n, b', playing, same⟩ := Playing.playLoop _ h
  refine ⟨n, b', playing, ?_, same⟩
  have exhausted := Player.play_exhausts false p
  rw [Player.play, same] at exhausted
  rcases playing.dequeue with ⟨-, _, taken, -⟩ | ⟨missing, -⟩
  · rw [taken] at exhausted
    cases exhausted
  · exact missing

end Play

end RtpStream

/-- What comes to the sockets of the task: a packet of the stream, as it was sent or behind the
header of a retransmission, or something else. -/
inductive Arrival
  | data (index : Nat)
  | control (header : List UInt8) (index : Nat)
  | other (event : UdpEvent)

namespace Arrival

def event (stream : RtpStream cbc origin) (sender : SocketAddr) : Arrival → UdpEvent
  | .data i => .data (stream.packet i) sender
  | .control header i => .control (header ++ stream.packet i) sender
  | .other event => event

/-- The packets that have arrived, and those that had arrived with the last packet of the data
socket. -/
structure Ledger where
  arrived : List Nat
  settled : List Nat

def Ledger.add (l : Ledger) : Arrival → Ledger × List Empty
  | .data i => (⟨i :: l.arrived, i :: l.arrived⟩, [])
  | .control _ i => ({ l with arrived := i :: l.arrived }, [])
  | .other _ => (l, [])

/-- A packet is not 31 numbers ahead of a missing one, nor half a turn behind the newest. -/
def Ledger.Timely (l : Ledger) (i : Nat) : Prop :=
  (∀ j, j + 31 ≤ i → j ∈ l.settled) ∧ ∀ j ∈ l.arrived, j < i + 2 ^ 15

/-- An event that is not from the sender. -/
def Foreign (remote : SocketAddr) : UdpEvent → Prop
  | .data _ sender => peerIpMatches remote sender = false
  | .control _ sender => peerIpMatches remote sender = false
  | .recvError => True
  | .shutdown => False

def Admissible (remote : SocketAddr) (l : Ledger) : Arrival → Prop
  | .data i => l.Timely i
  | .control header i => l.Timely i ∧ header.length = retransmitHeaderLen ∧
      header.getD 1 0 &&& ~~~0x80 = ctrlPayloadType
  | .other event => Foreign remote event

end Arrival

namespace UdpTask

open RtpStream Arrival

variable [StreamResample ρ] {stream : RtpStream cbc origin} {remote sender : SocketAddr}

/-- The frames before `due` have been played, and the packet `due` had not arrived with the last
one of the data socket. -/
structure InOrder (stream : RtpStream cbc origin) (remote : SocketAddr) (p : Player δ ρ)
    (l : Ledger) (t : UdpTask δ ρ) (log : List SessionCall) (due : Nat) : Prop where
  live : t.ended = false ∧ t.flush = noFlush ∧ t.noResend = false ∧ t.remoteSocket = remote
  playing : ∃ newest, stream.Playing l.arrived due newest t.player.buffer
  settled : ∀ i < due, i ∈ l.settled
  missing : due ∉ l.settled
  played : { t.player with buffer := p.buffer } = (run feed p (stream.frames 0 due)).1 ∧
    log = (run feed p (stream.frames 0 due)).2

omit [AlacDecode δ] in
theorem received_eq {datagram : List UInt8} (fits : datagram.length ≤ raopPacketLen) :
    received datagram = datagram :=
  List.take_of_length_le fits

omit [StreamResample ρ] in
theorem dataPacket_packet {t : UdpTask δ ρ} (peer : peerIpMatches t.remoteSocket sender = true)
    (i : Nat) : t.dataPacket (stream.packet i) sender = some (stream.packet i) := by
  have size := stream.size i
  rw [dataPacket, received_eq (by omega), if_pos ⟨peer, size.1⟩]

omit [StreamResample ρ] in
theorem retransmitted_packet {t : UdpTask δ ρ} (peer : peerIpMatches t.remoteSocket sender = true)
    {header : List UInt8} (length : header.length = retransmitHeaderLen)
    (payload : header.getD 1 0 &&& ~~~0x80 = ctrlPayloadType) (i : Nat) :
    t.retransmitted (header ++ stream.packet i) sender = some (stream.packet i) := by
  have size := stream.size i
  have total : (header ++ stream.packet i).length =
      retransmitHeaderLen + (stream.packet i).length := by
    rw [List.length_append, length]
  have second : (header ++ stream.packet i).getD 1 0 = header.getD 1 0 := by
    rw [List.getD_eq_getElem?_getD, List.getD_eq_getElem?_getD, List.getElem?_append_left]
    rw [length]
    decide
  rw [retransmitted, received_eq (by omega), second, if_pos ⟨peer, by omega, payload⟩,
    if_pos (by omega), ← length, List.drop_left]

theorem handle_foreign {t : UdpTask δ ρ} {event : UdpEvent}
    (foreign : Foreign t.remoteSocket event) : t.handle cbc event = (t, []) := by
  cases event with
  | data datagram sender =>
    have drops : t.dataPacket datagram sender = none :=
      if_neg fun accepted => Bool.false_ne_true (foreign.symm.trans accepted.1)
    rw [handle, drops]
  | control datagram sender =>
    have drops : t.retransmitted datagram sender = none :=
      if_neg fun accepted => Bool.false_ne_true (foreign.symm.trans accepted.1)
    rw [handle, drops]
  | recvError => rfl
  | shutdown => cases foreign

theorem turn_iteration {t : UdpTask δ ρ} (live : t.ended = false) (idle : t.flush = noFlush)
    (event : UdpEvent) : (polling cbc).turn t (.iteration event) = t.handle cbc event := by
  have serve : (polling cbc).serve t = (t, []) := if_neg (not_not_intro idle)
  have runs : ¬ (polling cbc).ended t = true := by
    show ¬ t.ended = true
    simp [live]
  rw [Polling.Task.turn, if_neg runs, serve]
  rfl

namespace InOrder

variable {p : Player δ ρ} {l : Ledger} {t : UdpTask δ ρ} {log : List SessionCall} {due : Nat}

/-- A packet of the data socket plays what is due. -/
theorem ofQueued {arrived : List Nat} {i newest : Nat}
    (live : t.ended = false ∧ t.flush = noFlush ∧ t.noResend = false ∧ t.remoteSocket = remote)
    (peer : peerIpMatches remote sender = true)
    (queued : stream.Playing (i :: arrived) due newest (t.queue cbc (stream.packet i)).buffer)
    (played : { t.player with buffer := p.buffer } = (run feed p (stream.frames 0 due)).1 ∧
      log = (run feed p (stream.frames 0 due)).2) :
    ∃ due, InOrder stream remote p ⟨i :: arrived, i :: arrived⟩
      (t.handle cbc (.data (stream.packet i) sender)).1
      (log ++ (t.handle cbc (.data (stream.packet i) sender)).2) due := by
  obtain ⟨runs, idle, resends, rfl⟩ := live
  obtain ⟨state, rfl⟩ := played
  obtain ⟨n, b', playing, missing, same⟩ := queued.play
  have handled : t.handle cbc (.data (stream.packet i) sender) =
      ({ t with player := ((t.queue cbc (stream.packet i)).play t.noResend).1 },
        ((t.queue cbc (stream.packet i)).play t.noResend).2) := by
    rw [handle, dataPacket_packet peer]
  rw [handled, resends, same]
  refine ⟨due + n, ⟨runs, idle, rfl, rfl⟩, ⟨newest, playing⟩, playing.played, missing, ?_⟩
  have more := feed_withBuffer (t.queue cbc (stream.packet i)) p.buffer (stream.frames due n)
  have before : { t.queue cbc (stream.packet i) with buffer := p.buffer } =
      (run feed p (stream.frames 0 due)).1 := state
  rw [before] at more
  rw [stream.frames_append 0 due n, Nat.zero_add, run_append, more]
  exact ⟨rfl, rfl⟩

/-- A timely packet is inside the window, or has been played not long ago. -/
theorem queue (h : InOrder stream remote p l t log due) {i : Nat} (timely : l.Timely i) :
    ∃ newest, stream.Playing (i :: l.arrived) due newest
      (t.queue cbc (stream.packet i)).buffer := by
  obtain ⟨newest, playing⟩ := h.playing
  refine playing.queue ?_ ?_
  · by_contra ahead
    exact h.missing (timely.1 due (by omega))
  · by_contra old
    have := timely.2 (due - 1) (playing.played _ (by omega))
    omega

/-- An iteration keeps the order. -/
theorem turn (h : InOrder stream remote p l t log due)
    (peer : peerIpMatches remote sender = true) {a : Arrival} (admissible : a.Admissible remote l) :
    ∃ due, InOrder stream remote p (l.add a).1
      ((polling cbc).turn t (.iteration (a.event stream sender))).1
      (log ++ ((polling cbc).turn t (.iteration (a.event stream sender))).2) due := by
  rw [turn_iteration h.live.1 h.live.2.1]
  cases a with
  | data i =>
    obtain ⟨newest, queued⟩ := h.queue admissible
    exact ofQueued h.live peer queued h.played
  | control header i =>
    obtain ⟨timely, length, payload⟩ := admissible
    have handled : t.handle cbc (.control (header ++ stream.packet i) sender) =
        ({ t with player := t.queue cbc (stream.packet i) }, []) := by
      rw [handle, retransmitted_packet (h.live.2.2.2 ▸ peer) length payload]
    rw [event, handled, List.append_nil]
    exact ⟨due, h.live, h.queue timely, h.settled, h.missing, h.played⟩
  | other event =>
    rw [Arrival.event, handle_foreign (h.live.2.2.2 ▸ admissible), List.append_nil]
    exact ⟨due, h⟩

theorem run (h : InOrder stream remote p l t log due) (peer : peerIpMatches remote sender = true)
    {order : List Arrival} (admissible : Always Ledger.add (Admissible remote) l order) :
    ∃ due, InOrder stream remote p (Machine.run Ledger.add l order).1
      (Machine.run (polling cbc).turn t (order.map fun a => .iteration (a.event stream sender))).1
      (log ++ (Machine.run (polling cbc).turn t
        (order.map fun a => .iteration (a.event stream sender))).2) due := by
  induction order generalizing l t log due with
  | nil => exact ⟨due, by simpa using h⟩
  | cons a order ih =>
    obtain ⟨next, kept⟩ := h.turn peer admissible.1
    rw [List.map_cons, run_cons, run_cons, ← List.append_assoc]
    exact ih kept admissible.2

end InOrder

/-- A sender that retransmits is played in order: whatever arrives late, twice or not at all, and
whatever other hosts send, the session gets the frames up to the first packet that had not arrived
with the last one of the data socket, each once and in the order they were sent. -/
theorem plays_in_order {rtpmap fmtp : String} {aes : Option AesSession}
    (built : build rtpmap fmtp aes = some origin) (stream : RtpStream cbc origin)
    (resampler : Option ρ) {controlRport : Nat} (resends : controlRport ≠ 0)
    (peer : peerIpMatches remote sender = true) {order : List Arrival}
    (admissible : Always Ledger.add (Admissible remote) ⟨[0], [0]⟩ order) :
    let settled := (run Ledger.add ⟨[0], [0]⟩ order).1.settled
    ∃ due, (∀ i < due, i ∈ settled) ∧ due ∉ settled ∧
      (run (polling cbc).turn (start origin resampler controlRport remote)
        ((.data 0 :: order).map fun a => .iteration (a.event stream sender))).2 =
          (run feed ⟨origin, resampler⟩ (stream.frames 0 due)).2 := by
  have drained := drained_build built
  have configured : stream.Configured origin := ⟨rfl, rfl, stream.start, drained.room⟩
  have empty : origin.isEmpty = true := by
    obtain ⟨_, -, same⟩ := Option.bind_eq_some_iff.mp built
    cases same
    rfl
  have queued := Playing.start configured (represents_build built).window empty
  have idle : (polling cbc).turn (start origin resampler controlRport remote)
      (.iteration (.data (stream.packet 0) sender)) =
        (start origin resampler controlRport remote).handle cbc (.data (stream.packet 0) sender) :=
    turn_iteration rfl rfl _
  have nothing : [] = (run feed (⟨origin, resampler⟩ : Player δ ρ) (stream.frames 0 0)).2 := rfl
  obtain ⟨first, begun⟩ := InOrder.ofQueued (t := start origin resampler controlRport remote)
    ⟨rfl, rfl, by simp [start, resends], rfl⟩ peer queued ⟨rfl, nothing⟩
  obtain ⟨due, final⟩ := begun.run peer admissible
  refine ⟨due, final.settled, final.missing, ?_⟩
  rw [← final.played.2, List.map_cons, run_cons, event, idle]
  rfl

/-- A sample packet for every place in a stream, and its frame. -/
def samplePacket (i : Nat) : List UInt8 :=
  stereoPacket (UInt8.ofNat (i / 256)) (UInt8.ofNat i)

def sampleFrame : List Sample := [sampleOfBytes 0x40 0x00, sampleOfBytes 0xc0 0x00]

theorem size_samplePacket (i : Nat) : 12 ≤ (samplePacket i).length ∧
    retransmitHeaderLen + (samplePacket i).length ≤ raopPacketLen := by
  have length : (samplePacket i).length = 16 := rfl
  rw [length]
  decide

theorem rtpSeqnum_samplePacket (i : Nat) :
    rtpSeqnum (samplePacket i) = 0#16 + BitVec.ofNat 16 i := by
  have header : rtpSeqnum (samplePacket i) =
      (BitVec.ofNat 8 (i / 256)).setWidth 16 <<< 8 ||| (BitVec.ofNat 8 i).setWidth 16 := rfl
  have low : i % 256 < 2 ^ 8 := Nat.mod_lt _ (by decide)
  have join := Nat.shiftLeft_add_eq_or_of_lt low (i / 256 % 256)
  have first : i / 256 % 2 ^ 8 % 2 ^ 16 * 2 ^ 8 % 2 ^ 16 = i / 256 % 256 * 2 ^ 8 := by omega
  have second : i % 2 ^ 8 % 2 ^ 16 = i % 256 := by omega
  rw [header, BitVec.zero_add]
  apply BitVec.eq_of_toNat_eq
  simp only [BitVec.toNat_or, BitVec.toNat_shiftLeft, BitVec.toNat_setWidth, BitVec.toNat_ofNat,
    Nat.shiftLeft_eq] at join ⊢
  rw [first, second, ← join]
  omega

theorem decode_samplePacket (i : Nat) (codec : Codec Unit) (ready : codec = .pcm ⟨2, 44100⟩) :
    ∃ next, next = .pcm ⟨2, 44100⟩ ∧ @Codec.decode Unit silentAlac 16378 16378
      (unusedStereo.decryptPayload (fun _ block => block) ((samplePacket i).drop 12))
        codec = (next, .samples sampleFrame) := by
  have payload : unusedStereo.decryptPayload (fun _ block => block)
      ((samplePacket i).drop 12) = [0x40, 0x00, 0xc0, 0x00] := rfl
  rw [payload, ready]
  exact ⟨_, rfl, rfl⟩

def sampleStream : @RtpStream Unit silentAlac (fun _ block => block)
    unusedStereo :=
  @RtpStream.mk Unit silentAlac (fun _ block => block) unusedStereo 0#16
    samplePacket (fun _ => sampleFrame) (fun codec => codec = .pcm ⟨2, 44100⟩) size_samplePacket
    rtpSeqnum_samplePacket rfl decode_samplePacket

/-- Packet 2 before packet 1, which is retransmitted, and a packet of another host. -/
def lateArrivals : List Arrival :=
  [.data 2, .control [0x80, 0xd6, 0, 1] 1, .other (.data [] ⟨.v4 0, 6000⟩), .data 3]

/-- All four frames are played. -/
theorem plays_in_order_late :
    (run (@polling Unit Unit silentAlac passThrough fun _ block => block).turn
      (start unusedStereo none 6001 senderAddr)
      ((.data 0 :: lateArrivals).map fun a =>
        .iteration (@Arrival.event Unit silentAlac (fun _ block => block)
          unusedStereo sampleStream senderAddr a))).2 =
      List.replicate 4 (.audioProcess sampleFrame) := by
  have admissible : Always Ledger.add (Admissible senderAddr) ⟨[0], [0]⟩ lateArrivals := by
    have near {i : Nat} (small : i ≤ 3) (l : Ledger) : ∀ j, j + 31 ≤ i → j ∈ l.settled :=
      fun j far => by omega
    exact ⟨⟨near (by decide) _, by decide⟩, ⟨⟨near (by decide) _, by decide⟩, rfl, rfl⟩, rfl,
      ⟨near (by decide) _, by decide⟩, trivial⟩
  obtain ⟨due, before, missing, played⟩ := @plays_in_order Unit Unit silentAlac
    (fun _ block => block) unusedStereo passThrough senderAddr senderAddr
    "96 L16/44100/2" "" none rfl sampleStream none 6001 (by decide) rfl lateArrivals admissible
  have four : due = 4 := by
    have below : ¬ 4 < due := fun beyond => absurd (before 4 beyond) (by decide)
    have missing : due ∉ [3, 1, 2, 0] := missing
    simp only [List.mem_cons, List.not_mem_nil, or_false, not_or] at missing
    omega
  rw [played, four]
  rfl

end UdpTask

end Shairplay.Raop
