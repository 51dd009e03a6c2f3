import Shairplay.Lib.Playout
import Shairplay.Lib.Serial
import Shairplay.Raop.Buffer

/-!
# The packet buffer delivers frames in order

`Window` is the invariant of the ring: the pending sequence numbers are at most 32
consecutive ones, and an available slot holds one of them at its own index. Under
it the 32 slots represent a finite map from sequence numbers to frames (`waiting`),
and the buffer simulates the abstract playout queue.

The log of a run records resets, accepted packets and delivered frames. An accepted
packet enters the log with the samples its codec produced, independently of where
the buffer stored them; a delivered frame enters with the sequence number that was
due. `run_orderedDelivery` is then the promise of the whole component.
-/

namespace Shairplay.Raop.RaopBuffer

open Lib Serial Playout Machine

variable {δ : Type} {b : RaopBuffer δ} {q : Queue (BitVec 16) (List Sample)}

section Arithmetic

variable {first last seqnum : BitVec 16}

/-- A packet inside the window advances its end exactly when it lies beyond it. -/
theorem newer_iff (pending : dist (last + 1) first ≤ 32) (inside : dist seqnum first < 32) :
    0 < seqnumCmp seqnum last ↔ dist (last + 1) first ≤ dist seqnum first := by
  simp only [seqnumCmp, Serial.dist, BitVec.toInt_eq_toNat_cond, BitVec.toNat_sub, BitVec.toNat_add,
    BitVec.reduceToNat] at *
  omega

/-- The signed length that `dequeue` computes is the number of pending packets. -/
theorem buflen_eq (pending : dist (last + 1) first ≤ 32) :
    seqnumCmp last first + 1 = dist (last + 1) first := by
  simp only [seqnumCmp, Serial.dist, BitVec.toInt_eq_toNat_cond, BitVec.toNat_sub, BitVec.toNat_add,
    BitVec.reduceToNat] at *
  omega

/-- Neither stale nor far ahead means inside the window of 32 numbers. -/
theorem dist_lt_of_near (notStale : ¬ seqnumCmp seqnum first < 0)
    (notFar : ¬ 0 ≤ seqnumCmp seqnum (first + BitVec.ofNat 16 raopBufferLength)) :
    dist seqnum first < 32 := by
  simp only [seqnumCmp, raopBufferLength, Serial.dist, BitVec.toInt_eq_toNat_cond, BitVec.toNat_sub,
    BitVec.toNat_add, BitVec.toNat_ofNat] at *
  omega

theorem seqnumCmp_eq_zero {a b : BitVec 16} : seqnumCmp a b = 0 ↔ a = b := by
  rw [seqnumCmp, show (0 : Int) = (0#16).toInt from rfl, BitVec.toInt_inj,
    BitVec.sub_eq_iff_eq_add, BitVec.zero_add]

theorem dist_succ_self (a : BitVec 16) : dist (a + 1) a = 1 := by
  simpa using dist_add_left a a 1

theorem dist_succ_of_lt (room : dist seqnum first ≤ 32) :
    dist (seqnum + 1) first = dist seqnum first + 1 := by
  have moved := dist_add_left seqnum first 1
  rw [Nat.mod_eq_of_lt (by omega)] at moved
  exact moved

end Arithmetic

@[simp] theorem entryAt_setEntry (b : RaopBuffer δ) (i j : Fin raopBufferLength) (e : BufferEntry) :
    (b.setEntry i e).entryAt j = if j = i then e else b.entryAt j := by
  simp only [entryAt, setEntry, Fin.getElem_fin, Vector.getElem_set, Fin.val_inj, eq_comm]

/-- The ring invariant. -/
structure Window (b : RaopBuffer δ) : Prop where
  pending : b.isEmpty = false → dist (b.lastSeqnum + 1) b.firstSeqnum ≤ 32
  nonempty : ∀ i : Fin raopBufferLength, (b.entryAt i).available = true → b.isEmpty = false
  placed : ∀ i : Fin raopBufferLength, (b.entryAt i).available = true →
    slot (b.entryAt i).seqnum = i
  inside : ∀ i : Fin raopBufferLength, (b.entryAt i).available = true →
    dist (b.entryAt i).seqnum b.firstSeqnum < dist (b.lastSeqnum + 1) b.firstSeqnum

/-- The frame waiting under a sequence number. -/
def waiting (b : RaopBuffer δ) (seqnum : BitVec 16) : Option (List Sample) :=
  let e := b.entryAt (slot seqnum)
  if e.available = true ∧ e.seqnum = seqnum then some (e.audioBuffer.take e.audioBufferLen)
  else none

/-- A buffer and an abstract queue in agreement. -/
structure Represents (b : RaopBuffer δ) (q : Queue (BitVec 16) (List Sample)) : Prop where
  window : Window b
  frames : ∀ seqnum, q.pending seqnum = b.waiting seqnum
  due : ∀ seqnum, q.next = some seqnum → b.isEmpty = false ∧ seqnum = b.firstSeqnum

theorem slot_eq_iff {a b : BitVec 16} : slot a = slot b ↔ a.toNat % 32 = b.toNat % 32 := by
  simp [slot, raopBufferLength, Fin.ext_iff]

namespace Window

/-- Inside the window an available slot can only hold the number it is asked for. -/
theorem seqnum_eq (h : Window b) {seqnum : BitVec 16} (inside : dist seqnum b.firstSeqnum < 32)
    (available : (b.entryAt (slot seqnum)).available = true) :
    (b.entryAt (slot seqnum)).seqnum = seqnum := by
  have near := h.inside _ available
  have bound := h.pending (h.nonempty _ available)
  exact eq_of_slot_eq (by decide : 32 ∣ 2 ^ 16) (by omega) inside
    (slot_eq_iff.mp (h.placed _ available))

end Window

theorem entryAt_flush (b : RaopBuffer δ) (nextSeq : Int) (i : Fin raopBufferLength) :
    (b.flush nextSeq).entryAt i = (b.entryAt i).clear := by
  unfold flush
  split <;> simp [entryAt]

@[simp] theorem flush_available (b : RaopBuffer δ) (nextSeq : Int) (i : Fin raopBufferLength) :
    ((b.flush nextSeq).entryAt i).available = false := by
  rw [entryAt_flush]
  rfl

/-- A flush to a sequence number starts an empty window there. -/
theorem flush_toNat (b : RaopBuffer δ) (seqnum : BitVec 16) :
    b.flush seqnum.toNat =
      { b with
        entries := b.entries.map BufferEntry.clear
        firstSeqnum := seqnum, lastSeqnum := seqnum - 1 } := by
  have inRange : 0 ≤ (seqnum.toNat : Int) ∧ (seqnum.toNat : Int) ≤ 0xffff := by
    have := seqnum.isLt
    omega
  have same : BitVec.ofInt 16 seqnum.toNat = seqnum := by
    rw [BitVec.ofInt_natCast, BitVec.ofNat_toNat, BitVec.setWidth_eq]
  rw [flush, if_neg (not_not.mpr inRange), same]

theorem flush_firstSeqnum (b : RaopBuffer δ) (seqnum : BitVec 16) :
    (b.flush seqnum.toNat).firstSeqnum = seqnum := by
  rw [flush_toNat]

theorem flush_lastSeqnum (b : RaopBuffer δ) (seqnum : BitVec 16) :
    (b.flush seqnum.toNat).lastSeqnum = seqnum - 1 := by
  rw [flush_toNat]

theorem waiting_flush (b : RaopBuffer δ) (nextSeq : Int) (seqnum : BitVec 16) :
    (b.flush nextSeq).waiting seqnum = none := by
  simp [waiting]

/-- A flush leaves the fresh abstract queue. -/
theorem represents_flush (b : RaopBuffer δ) (nextSeq : Int) :
    Represents (b.flush nextSeq) Queue.empty where
  window :=
    { pending := by
        unfold flush
        split
        · simp
        · intro _
          simp
      nonempty := by simp
      placed := by simp
      inside := by simp }
  frames := fun seqnum => (waiting_flush b nextSeq seqnum).symm
  due := by simp [Queue.empty]

/-- A packet becomes the start of the window that it resynchronises to. -/
theorem dist_flush_lt (b : RaopBuffer δ) (seqnum : BitVec 16) :
    dist seqnum (b.flush seqnum.toNat).firstSeqnum < 32 := by
  rw [flush_firstSeqnum, dist_self]
  decide

/-- A packet that is neither stale nor far ahead lies in the window, if there is one. -/
theorem inside_of_near {seqnum : BitVec 16} (fresh : b.isStale seqnum = false)
    (near : b.isFarAhead seqnum = false) : b.isEmpty = true ∨ dist seqnum b.firstSeqnum < 32 := by
  cases empty : b.isEmpty with
  | true => exact .inl rfl
  | false =>
    refine .inr (dist_lt_of_near ?_ ?_)
    · simpa [isStale, empty] using fresh
    · simpa [isFarAhead] using near

/-- Only the window and the slots matter for the represented queue. -/
theorem Represents.congr {b b' : RaopBuffer δ}
    (h : Represents b q) (isEmpty : b'.isEmpty = b.isEmpty) (first : b'.firstSeqnum = b.firstSeqnum)
    (last : b'.lastSeqnum = b.lastSeqnum) (entries : b'.entries = b.entries) : Represents b' q := by
  have entryAt : ∀ i, b'.entryAt i = b.entryAt i := by
    intro i
    simp only [RaopBuffer.entryAt, entries]
  obtain ⟨⟨pending, nonempty, placed, inside⟩, frames, due⟩ := h
  refine ⟨⟨?_, ?_, ?_, ?_⟩, ?_, ?_⟩
  · simpa only [isEmpty, first, last] using pending
  · simpa only [isEmpty, entryAt] using nonempty
  · simpa only [entryAt] using placed
  · simpa only [entryAt, first, last] using inside
  · simpa only [waiting, entryAt] using frames
  · simpa only [isEmpty, first] using due

/-- Overwriting a slot that is not available changes nothing that is represented. -/
theorem Represents.clear (h : Represents b q) {i : Fin raopBufferLength} {e : BufferEntry}
    (free : (b.entryAt i).available = false) (cleared : e.available = false) :
    Represents (b.setEntry i e) q := by
  have kept : ∀ j, ((b.setEntry i e).entryAt j).available = true →
      (b.setEntry i e).entryAt j = b.entryAt j := by
    intro j
    by_cases hj : j = i
    · simp [hj, cleared]
    · simp [hj]
  have old : ∀ j, ((b.setEntry i e).entryAt j).available = true →
      (b.entryAt j).available = true := fun j hj => by rw [← kept j hj]; exact hj
  refine ⟨⟨h.window.pending, fun j hj => h.window.nonempty j (old j hj), ?_, ?_⟩, ?_, h.due⟩
  · intro j hj
    rw [kept j hj]
    exact h.window.placed j (old j hj)
  · intro j hj
    rw [kept j hj]
    exact h.window.inside j (old j hj)
  · intro seqnum
    rw [h.frames, waiting, waiting]
    by_cases hj : slot seqnum = i
    · simp [hj, free, cleared]
    · simp [hj]

section Store

variable {seqnum : BitVec 16} {samples : List Sample} {data : List UInt8}

theorem entryAt_store_same (b : RaopBuffer δ) (data : List UInt8) (seqnum : BitVec 16)
    (samples : List Sample) :
    ((b.store data seqnum samples).entryAt (slot seqnum)).available = true ∧
      ((b.store data seqnum samples).entryAt (slot seqnum)).seqnum = seqnum ∧
      ((b.store data seqnum samples).entryAt (slot seqnum)).audioBuffer.take
        ((b.store data seqnum samples).entryAt (slot seqnum)).audioBufferLen = samples := by
  simp [store]

theorem entryAt_store_other {i : Fin raopBufferLength} (h : i ≠ slot seqnum) :
    (b.store data seqnum samples).entryAt i = b.entryAt i := by
  simp [store, h]

@[simp] theorem updateWindow_entryAt (b : RaopBuffer δ) (seqnum : BitVec 16)
    (i : Fin raopBufferLength) : (b.updateWindow seqnum).entryAt i = b.entryAt i := by
  simp only [updateWindow]
  split <;> split <;> rfl

@[simp] theorem updateWindow_isEmpty (b : RaopBuffer δ) (seqnum : BitVec 16) :
    (b.updateWindow seqnum).isEmpty = false := by
  simp only [updateWindow]
  split <;> split <;> simp_all

/-- The first packet of an empty buffer becomes its whole window. -/
theorem updateWindow_of_empty (b : RaopBuffer δ) (seqnum : BitVec 16) (empty : b.isEmpty = true) :
    (b.updateWindow seqnum).firstSeqnum = seqnum ∧ (b.updateWindow seqnum).lastSeqnum = seqnum := by
  simp [updateWindow, empty, seqnumCmp]

/-- Otherwise the start stays and the end moves as far as the packet needs. -/
theorem updateWindow_of_nonempty (b : RaopBuffer δ) (seqnum : BitVec 16)
    (nonempty : b.isEmpty = false) (pending : dist (b.lastSeqnum + 1) b.firstSeqnum ≤ 32)
    (inside : dist seqnum b.firstSeqnum < 32) :
    (b.updateWindow seqnum).firstSeqnum = b.firstSeqnum ∧
      dist ((b.updateWindow seqnum).lastSeqnum + 1) b.firstSeqnum =
        max (dist (b.lastSeqnum + 1) b.firstSeqnum) (dist seqnum b.firstSeqnum + 1) := by
  have advance : dist (seqnum + 1) b.firstSeqnum = dist seqnum b.firstSeqnum + 1 :=
    dist_succ_of_lt inside.le
  simp only [updateWindow, nonempty, Bool.false_eq_true, if_false]
  by_cases newer : 0 < seqnumCmp seqnum b.lastSeqnum
  · rw [if_pos newer]
    have beyond := (newer_iff pending inside).mp newer
    exact ⟨rfl, by rw [advance]; omega⟩
  · rw [if_neg newer]
    have within := mt (newer_iff pending inside).mpr newer
    exact ⟨rfl, by omega⟩

/-- Storing a frame in a free slot of the window adds it to the waiting frames. -/
theorem Represents.accept (h : Represents b q) (free : (b.entryAt (slot seqnum)).available = false)
    (inside : b.isEmpty = true ∨ dist seqnum b.firstSeqnum < 32) :
    Represents ((b.store data seqnum samples).updateWindow seqnum)
      { q with pending := Function.update q.pending seqnum (some samples) } := by
  have stored := entryAt_store_same b data seqnum samples
  have frames : ∀ s, Function.update q.pending seqnum (some samples) s =
      ((b.store data seqnum samples).updateWindow seqnum).waiting s := by
    intro s
    by_cases hs : s = seqnum
    · subst hs
      simp [waiting, stored]
    · rw [Function.update_of_ne hs, h.frames]
      simp only [waiting, updateWindow_entryAt]
      by_cases hslot : slot s = slot seqnum
      · rw [hslot, free]
        simp [stored.2.1, Ne.symm hs]
      · rw [entryAt_store_other hslot]
  cases empty : b.isEmpty with
  | true =>
    have unavailable : ∀ i, (b.entryAt i).available = false := by
      intro i
      by_contra hi
      have := h.window.nonempty i (by simpa using hi)
      simp [empty] at this
    have ends := updateWindow_of_empty (b.store data seqnum samples) seqnum empty
    have only : ∀ i, ((b.store data seqnum samples).entryAt i).available = true →
        i = slot seqnum := by
      intro i hi
      by_contra hne
      rw [entryAt_store_other hne, unavailable i] at hi
      exact Bool.false_ne_true hi
    refine ⟨⟨?_, fun _ _ => updateWindow_isEmpty _ _, ?_, ?_⟩, frames, ?_⟩
    · intro _
      rw [ends.1, ends.2, dist_succ_self]
      omega
    · intro i hi
      rw [updateWindow_entryAt] at hi ⊢
      rw [only i hi, stored.2.1]
    · intro i hi
      rw [updateWindow_entryAt] at hi ⊢
      rw [only i hi, stored.2.1, ends.1, ends.2, dist_self, dist_succ_self]
      omega
    · intro s due
      simpa [empty] using (h.due s due).1
  | false =>
    have near : dist seqnum b.firstSeqnum < 32 := inside.resolve_left (by simp [empty])
    have pending := h.window.pending empty
    have ends := updateWindow_of_nonempty (b.store data seqnum samples) seqnum empty pending near
    have first : ((b.store data seqnum samples).updateWindow seqnum).firstSeqnum =
        b.firstSeqnum := ends.1
    have last : dist (((b.store data seqnum samples).updateWindow seqnum).lastSeqnum + 1)
        b.firstSeqnum = max (dist (b.lastSeqnum + 1) b.firstSeqnum)
          (dist seqnum b.firstSeqnum + 1) := ends.2
    refine ⟨⟨?_, fun _ _ => updateWindow_isEmpty _ _, ?_, ?_⟩, frames, ?_⟩
    · intro _
      rw [first, last]
      omega
    · intro i hi
      rw [updateWindow_entryAt] at hi ⊢
      by_cases hne : i = slot seqnum
      · rw [hne, stored.2.1]
      · rw [entryAt_store_other hne] at hi ⊢
        exact h.window.placed i hi
    · intro i hi
      rw [updateWindow_entryAt] at hi ⊢
      rw [first, last]
      by_cases hne : i = slot seqnum
      · rw [hne, stored.2.1]
        omega
      · rw [entryAt_store_other hne] at hi ⊢
        have := h.window.inside i hi
        omega
    · intro s due
      exact ⟨updateWindow_isEmpty _ _, (h.due s due).2.trans first.symm⟩

end Store

section Queue

variable [AlacDecode δ] (cbc : AesSession → List UInt8 → List UInt8)

def codecSamples (b : RaopBuffer δ) (data : List UInt8) (seqnum : BitVec 16) : List Sample :=
  match (b.decodePacket cbc data seqnum).2 with
  | .rejected _ => []
  | .samples samples => samples

/-- Decoding does not look at the slot beyond the size of its sample buffer. -/
theorem decodePacket_setEntry (b : RaopBuffer δ) (data : List UInt8) (seqnum : BitVec 16)
    (e : BufferEntry) (size : e.audioBuffer.length = (b.entryAt (slot seqnum)).audioBuffer.length) :
    (b.setEntry (slot seqnum) e).decodePacket cbc data seqnum = b.decodePacket cbc data seqnum := by
  simp only [decodePacket, entryAt_setEntry, if_true, size]
  rfl

/-- Events of queueing one packet, apart from a resynchronisation. -/
def acceptEvents (b : RaopBuffer δ) (data : List UInt8) (seqnum : BitVec 16) (code : Int) :
    List (Event (BitVec 16) (List Sample)) :=
  if code = 1 then [.accept seqnum (b.codecSamples cbc data seqnum)] else []

def Silent (frame : List Sample) : Prop := ∀ sample ∈ frame, sample = 0

/-- The specification the buffer is compared with. -/
abbrev PlayoutStep := Queue.Step (fun seqnum : BitVec 16 => seqnum + 1) Silent

/-- Decoding into a free slot of the window either accepts the packet or changes
nothing that is represented. -/
theorem fillSlot_simulates (h : Represents b q) (data : List UInt8) (seqnum : BitVec 16)
    (free : (b.entryAt (slot seqnum)).available = false)
    (inside : b.isEmpty = true ∨ dist seqnum b.firstSeqnum < 32) :
    ∃ r, Accepts PlayoutStep q
        (b.acceptEvents cbc data seqnum (b.fillSlot cbc data seqnum).2) r ∧
      Represents (b.fillSlot cbc data seqnum).1 r := by
  unfold fillSlot
  cases decoded : b.decodePacket cbc data seqnum with
  | mk codec result =>
    cases result with
    | rejected code =>
      have ne : code ≠ 1 := Codec.rejected_ne_one (congrArg Prod.snd decoded)
      refine ⟨q, ?_, h.congr rfl rfl rfl rfl⟩
      simp only [acceptEvents, if_neg ne]
      exact .nil
    | samples samples =>
      have produced : b.codecSamples cbc data seqnum = samples := by
        simp [codecSamples, decoded]
      have prepared : Represents
          { b with codec, silenceSamples := codec.nextSilence b.silenceSamples samples } q :=
        h.congr rfl rfl rfl rfl
      refine ⟨_, ?_, prepared.accept free inside⟩
      simp only [acceptEvents, if_true, produced]
      refine .cons (.accept ?_) .nil
      simp [h.frames, waiting, free]

theorem queueInWindow_simulates (h : Represents b q) (data : List UInt8) {seqnum : BitVec 16}
    (inside : b.isEmpty = true ∨ dist seqnum b.firstSeqnum < 32) :
    ∃ r, Accepts PlayoutStep q
        (b.acceptEvents cbc data seqnum (b.queueInWindow cbc data seqnum).2) r ∧
      Represents (b.queueInWindow cbc data seqnum).1 r := by
  simp only [queueInWindow]
  split
  · exact ⟨q, .nil, h⟩
  · rename_i notDuplicate
    -- an available slot of the window would hold this very number
    have free : (b.entryAt (slot seqnum)).available = false := by
      by_contra available
      rw [Bool.not_eq_false] at available
      have nonempty := h.window.nonempty _ available
      have same := h.window.seqnum_eq (inside.resolve_left (by simp [nonempty])) available
      simp [available, same, seqnumCmp_eq_zero] at notDuplicate
    have cleared : Represents (b.setEntry (slot seqnum) (b.entryAt (slot seqnum)).clear) q :=
      h.clear free rfl
    have events := fillSlot_simulates cbc cleared data seqnum (by simp [BufferEntry.clear]) inside
    simpa only [acceptEvents, codecSamples,
      decodePacket_setEntry cbc b data seqnum (b.entryAt (slot seqnum)).clear rfl] using events

/-- A packet that makes the buffer resynchronise. -/
def resyncs (b : RaopBuffer δ) (data : List UInt8) : Bool :=
  12 ≤ data.length && data.length ≤ raopPacketLen &&
    !b.isStale (b.packetSeqnum data true) && b.isFarAhead (b.packetSeqnum data true)

/-- Events of queueing a packet by its own sequence number: a resynchronisation is a
reset, and a packet enters the log when `queue` returned 1. -/
def queueEvents (b : RaopBuffer δ) (data : List UInt8) : List (Event (BitVec 16) (List Sample)) :=
  (if b.resyncs data then [.reset] else []) ++
    b.acceptEvents cbc data (b.packetSeqnum data true) (b.queue cbc data true).2

theorem decodePacket_flush (b : RaopBuffer δ) (nextSeq : Int) (data : List UInt8)
    (seqnum : BitVec 16) :
    (b.flush nextSeq).decodePacket cbc data seqnum = b.decodePacket cbc data seqnum := by
  have size : ((b.flush nextSeq).entryAt (slot seqnum)).audioBuffer.length =
      (b.entryAt (slot seqnum)).audioBuffer.length := by
    rw [entryAt_flush]
    rfl
  unfold decodePacket
  rw [size]
  unfold flush
  split <;> rfl

/-- Queueing a packet is answered by the abstract queue. -/
theorem queue_simulates (h : Represents b q) (data : List UInt8) :
    ∃ r, Accepts PlayoutStep q (b.queueEvents cbc data) r ∧
      Represents (b.queue cbc data true).1 r := by
  unfold queueEvents queue resyncs
  by_cases length : 12 ≤ data.length ∧ data.length ≤ raopPacketLen
  swap
  · exact ⟨q, by simpa [length, acceptEvents] using .nil, by simpa [length] using h⟩
  rw [if_neg (not_not.mpr length)]
  simp only [length.1, length.2, decide_true, Bool.true_and]
  cases stale : b.isStale (b.packetSeqnum data true) with
  | true => exact ⟨q, by simpa [acceptEvents] using .nil, h⟩
  | false =>
    cases far : b.isFarAhead (b.packetSeqnum data true) with
    | true =>
      obtain ⟨r, accepted, related⟩ :=
        queueInWindow_simulates cbc (represents_flush b _) data (.inr (dist_flush_lt b _))
      refine ⟨r, ?_, related⟩
      change Accepts PlayoutStep q (.reset :: b.acceptEvents cbc data (b.packetSeqnum data true)
        ((b.flush _).queueInWindow cbc data (b.packetSeqnum data true)).2) r
      refine .cons .reset ?_
      simpa only [acceptEvents, codecSamples, decodePacket_flush] using accepted
    | false => exact queueInWindow_simulates cbc h data (inside_of_near stale far)

end Queue

def dequeueEvents (b : RaopBuffer δ) (noResend : Bool) : List (Event (BitVec 16) (List Sample)) :=
  match (b.dequeue noResend).2 with
  | none => []
  | some frame => [.out b.firstSeqnum frame]

/-- Taking a frame changes nothing, or it frees the first slot and moves on. -/
theorem dequeue_cases (b : RaopBuffer δ) (noResend : Bool) :
    b.dequeue noResend = (b, none) ∨
      b.isEmpty = false ∧ 0 < seqnumCmp b.lastSeqnum b.firstSeqnum + 1 ∧
      ∃ e frame, e.available = false ∧
        b.dequeue noResend =
          ({ b.setEntry (slot b.firstSeqnum) e with firstSeqnum := b.firstSeqnum + 1 },
            some frame) ∧
        ((b.entryAt (slot b.firstSeqnum)).available = true ∧
            frame = (b.entryAt (slot b.firstSeqnum)).audioBuffer.take
              (b.entryAt (slot b.firstSeqnum)).audioBufferLen ∨
          (b.entryAt (slot b.firstSeqnum)).available = false ∧ Silent frame) := by
  simp only [dequeue]
  split
  · exact .inl rfl
  · rename_i pending
    split
    · exact .inl rfl
    · rw [not_or, Bool.not_eq_true, not_le] at pending
      refine .inr ⟨pending.1, pending.2, _, _, ?_, rfl, ?_⟩
      · rfl
      · cases available : (b.entryAt (slot b.firstSeqnum)).available with
        | true => exact .inl ⟨rfl, rfl⟩
        | false =>
          refine .inr ⟨rfl, ?_⟩
          simp [Silent]

/-- Once the first frame is taken, its slot is free and the next number is due. -/
theorem Represents.take (h : Represents b q) (nonempty : b.isEmpty = false)
    (pending : 0 < dist (b.lastSeqnum + 1) b.firstSeqnum) {e : BufferEntry}
    (freed : e.available = false) :
    Represents { b.setEntry (slot b.firstSeqnum) e with firstSeqnum := b.firstSeqnum + 1 }
      { pending := Function.update q.pending b.firstSeqnum none
        next := some (b.firstSeqnum + 1) } := by
  have entry : ∀ j, entryAt { b.setEntry (slot b.firstSeqnum) e with
      firstSeqnum := b.firstSeqnum + 1 } j =
        if j = slot b.firstSeqnum then e else b.entryAt j := fun j =>
    entryAt_setEntry b _ j e
  have other : ∀ j, (if j = slot b.firstSeqnum then e else b.entryAt j).available = true →
      j ≠ slot b.firstSeqnum ∧ (b.entryAt j).available = true := by
    intro j hj
    by_cases first : j = slot b.firstSeqnum
    · simp [first, freed] at hj
    · simpa [first] using hj
  have shrink : ∀ a, 0 < dist a b.firstSeqnum →
      dist a (b.firstSeqnum + 1) = dist a b.firstSeqnum - 1 := fun a ha =>
    dist_add_right a b.firstSeqnum 1 ha
  refine ⟨⟨?_, fun _ _ => nonempty, ?_, ?_⟩, ?_, ?_⟩
  · intro _
    have := h.window.pending nonempty
    change dist (b.lastSeqnum + 1) (b.firstSeqnum + 1) ≤ 32
    rw [shrink _ pending]
    omega
  · intro j hj
    rw [entry] at hj ⊢
    obtain ⟨ne, available⟩ := other j hj
    rw [if_neg ne]
    exact h.window.placed j available
  · intro j hj
    rw [entry] at hj ⊢
    obtain ⟨ne, available⟩ := other j hj
    rw [if_neg ne]
    have before := h.window.inside j available
    -- the entry is not the one that was taken, since it sits in another slot
    have later : 0 < dist (b.entryAt j).seqnum b.firstSeqnum := by
      rw [Nat.pos_iff_ne_zero, Ne, dist_eq_zero]
      rintro same
      exact ne ((h.window.placed j available).symm.trans (congrArg slot same))
    change dist (b.entryAt j).seqnum (b.firstSeqnum + 1) <
      dist (b.lastSeqnum + 1) (b.firstSeqnum + 1)
    rw [shrink _ pending, shrink _ later]
    omega
  · intro seqnum
    simp only [waiting, entry]
    by_cases same : slot seqnum = slot b.firstSeqnum
    · simp only [same, if_true, freed, Bool.false_eq_true, false_and, if_false]
      by_cases first : seqnum = b.firstSeqnum
      · simp [first]
      · rw [Function.update_of_ne first, h.frames, waiting, same, if_neg]
        rintro ⟨available, holds⟩
        exact first (holds.symm.trans (h.window.seqnum_eq (by simp) available))
    · have ne : seqnum ≠ b.firstSeqnum := fun first => same (congrArg slot first)
      rw [Function.update_of_ne ne, h.frames, waiting, if_neg same]
  · intro seqnum due
    exact ⟨nonempty, (Option.some.inj due).symm⟩

/-- Taking a frame is answered by the abstract queue. -/
theorem dequeue_simulates (h : Represents b q) (noResend : Bool) :
    ∃ r, Accepts PlayoutStep q (b.dequeueEvents noResend) r ∧
      Represents (b.dequeue noResend).1 r := by
  unfold dequeueEvents
  obtain same | ⟨nonempty, buflen, e, frame, freed, taken, carried⟩ := dequeue_cases b noResend
  · rw [same]
    exact ⟨q, .nil, h⟩
  · rw [taken]
    rw [buflen_eq (h.window.pending nonempty)] at buflen
    refine ⟨_, .cons (.out ?_ ?_) .nil, h.take nonempty (by exact_mod_cast buflen) freed⟩
    · intro seqnum due
      exact (h.due seqnum due).2
    · rw [h.frames, waiting]
      rcases carried with ⟨available, rfl⟩ | ⟨missing, silent⟩
      · have same := h.window.seqnum_eq (by simp) available
        exact .inl (if_pos ⟨available, same⟩)
      · exact .inr ⟨by simp [missing], silent⟩

section Runs

variable [AlacDecode δ] (cbc : AesSession → List UInt8 → List UInt8)

/-- The calls of a client that queues packets by their own sequence number. -/
inductive Op
  | queue (data : List UInt8)
  | dequeue (noResend : Bool)
  | flush (nextSeq : Int)

def step (b : RaopBuffer δ) : Op → RaopBuffer δ × List (Event (BitVec 16) (List Sample))
  | .queue data => ((b.queue cbc data true).1, b.queueEvents cbc data)
  | .dequeue noResend => ((b.dequeue noResend).1, b.dequeueEvents noResend)
  | .flush nextSeq => (b.flush nextSeq, [.reset])

theorem step_simulates (b : RaopBuffer δ) (q : Queue (BitVec 16) (List Sample)) (op : Op)
    (h : Represents b q) :
    ∃ r, Accepts PlayoutStep q (b.step cbc op).2 r ∧ Represents (b.step cbc op).1 r := by
  cases op with
  | queue data => exact queue_simulates cbc h data
  | dequeue noResend => exact dequeue_simulates h noResend
  | flush nextSeq => exact ⟨_, .cons .reset .nil, represents_flush b nextSeq⟩

/-- A fresh buffer represents the fresh queue. -/
theorem represents_build {rtpmap fmtp : String} {aes : Option AesSession}
    (built : build rtpmap fmtp aes = some b) : Represents b Queue.empty := by
  obtain ⟨⟨codec, frameCapacity, silenceSamples⟩, _, made⟩ := Option.bind_eq_some_iff.mp built
  cases made
  have unavailable : ∀ i, ((fresh aes codec frameCapacity silenceSamples).entryAt i).available =
      false := by
    simp [fresh, entryAt]
  refine ⟨⟨by simp [fresh], ?_, ?_, ?_⟩, ?_, by simp [Queue.empty]⟩
  all_goals simp [unavailable, waiting, Queue.empty]

/-- Every run of a fresh buffer delivers frames in order: between two resets the
delivered sequence numbers are consecutive modulo 65536, each delivered frame is the
one packet accepted under its number since the reset or since the number was last
delivered, or silence when there is none. -/
theorem run_orderedDelivery {rtpmap fmtp : String} {aes : Option AesSession} {b : RaopBuffer δ}
    (built : build rtpmap fmtp aes = some b) (ops : List Op) :
    OrderedDelivery (fun seqnum : BitVec 16 => seqnum + 1) Silent (run (step cbc) b ops).2 := by
  obtain ⟨_, accepted, _⟩ := run_simulates (step_simulates cbc) (represents_build built) ops
  exact orderedDelivery_of_accepts accepted

end Runs

/-- An ALAC decoder that gives up on every frame; an `L16` stream never calls it. -/
@[reducible] def silentAlac : AlacDecode Unit where
  new _ _ := ()
  setInfo _ _ := ()
  decodeFrame _ _ out := ((), out, none)

/-- A stereo `L16` packet of one frame with the given sequence number. -/
def stereoPacket (hi lo : UInt8) : List UInt8 :=
  [0x80, 0x60, hi, lo, 0, 0, 0, 0, 0, 0, 0, 0, 0x40, 0x00, 0xc0, 0x00]

/-- Three packets around the wrap, of which the last two arrive in the wrong order. -/
def wrapOps : List Op :=
  [.queue (stereoPacket 0xff 0xfe), .queue (stereoPacket 0x00 0x00),
    .queue (stereoPacket 0xff 0xff), .dequeue false, .dequeue false, .dequeue false]

theorem run_orderedDelivery_wrap :
    @build Unit silentAlac "96 L16/44100/2" "" none =
        some (fresh none (.pcm ⟨2, 44100⟩) 16378 704) ∧
      (run (@step Unit silentAlac fun _ block => block) (fresh none (.pcm ⟨2, 44100⟩) 16378 704)
        wrapOps).2 =
        [.accept 65534 [1 / 2, -1 / 2], .accept 0 [1 / 2, -1 / 2], .accept 65535 [1 / 2, -1 / 2],
          .out 65534 [1 / 2, -1 / 2], .out 65535 [1 / 2, -1 / 2], .out 0 [1 / 2, -1 / 2]] ∧
      OrderedDelivery (fun seqnum : BitVec 16 => seqnum + 1) Silent
        (run (@step Unit silentAlac fun _ block => block) (fresh none (.pcm ⟨2, 44100⟩) 16378 704)
          wrapOps).2 :=
  ⟨rfl, by decide +kernel,
    @run_orderedDelivery Unit silentAlac (fun _ block => block) "96 L16/44100/2" "" none _ rfl
      wrapOps⟩

end Shairplay.Raop.RaopBuffer
