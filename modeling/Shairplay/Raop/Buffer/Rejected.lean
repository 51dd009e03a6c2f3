import Shairplay.Raop.Buffer.Calls

/-!
# What a rejected packet leaves behind

A packet that `queue` rejects may have cleared its slot and changed the decoder; neither shows
in the frames that are taken later. It may also have been so far ahead that the buffer was
flushed before the packet was decoded. That flush is not undone: the frames that were pending
are lost with the packet.
-/

namespace Shairplay.Raop.RaopBuffer

open Lib Serial Playout Machine

variable {δ : Type}

/-- The frames that a sequence of `dequeue` calls hands out. -/
def handsOut (b : RaopBuffer δ) (takes : List Bool) : List (List Sample) :=
  (run (fun b noResend => ((b.dequeue noResend).1, (b.dequeue noResend).2.toList)) b takes).2

theorem handsOut_cons (b : RaopBuffer δ) (noResend : Bool) (takes : List Bool) :
    b.handsOut (noResend :: takes) =
      (b.dequeue noResend).2.toList ++ (b.dequeue noResend).1.handsOut takes := rfl

/-- Two buffers that differ only in what no `dequeue` call reads. -/
structure Alike (b b' : RaopBuffer δ) : Prop where
  isEmpty : b'.isEmpty = b.isEmpty
  first : b'.firstSeqnum = b.firstSeqnum
  last : b'.lastSeqnum = b.lastSeqnum
  capacity : b'.frameCapacity = b.frameCapacity
  silence : b'.silenceSamples = b.silenceSamples
  available : ∀ i, (b'.entryAt i).available = (b.entryAt i).available
  frame : ∀ i, (b.entryAt i).available = true → b'.entryAt i = b.entryAt i

namespace Alike

variable {b b' : RaopBuffer δ}

theorem frameIn (h : Alike b b') (i : Fin raopBufferLength) :
    b'.frameIn (b'.entryAt i) = b.frameIn (b.entryAt i) := by
  unfold RaopBuffer.frameIn
  rw [h.available i, h.silence, h.capacity]
  split
  · rename_i available
    rw [h.frame i available]
  · rfl

/-- Clearing the same slot of both and moving on keeps them alike. -/
theorem advance (h : Alike b b') {i : Fin raopBufferLength} {e e' : BufferEntry}
    (free : e.available = false) (free' : e'.available = false) (next : BitVec 16) :
    Alike { b.setEntry i e with firstSeqnum := next }
      { b'.setEntry i e' with firstSeqnum := next } where
  isEmpty := h.isEmpty
  first := rfl
  last := h.last
  capacity := h.capacity
  silence := h.silence
  available := by
    intro j
    change ((b'.setEntry i e').entryAt j).available = ((b.setEntry i e).entryAt j).available
    rw [entryAt_setEntry, entryAt_setEntry]
    split
    · rw [free, free']
    · exact h.available j
  frame := by
    intro j available
    change (b'.setEntry i e').entryAt j = (b.setEntry i e).entryAt j
    change ((b.setEntry i e).entryAt j).available = true at available
    rw [entryAt_setEntry] at available ⊢
    rw [entryAt_setEntry]
    split
    · rename_i same
      rw [if_pos same, free] at available
      cases available
    · rename_i other
      rw [if_neg other] at available
      exact h.frame j available

theorem waits_iff (h : Alike b b') (noResend : Bool) : b'.Waits noResend ↔ b.Waits noResend := by
  simp only [Waits, h.isEmpty, h.first, h.last, h.available]

theorem dequeue (h : Alike b b') (noResend : Bool) :
    (b'.dequeue noResend).2 = (b.dequeue noResend).2 ∧
      Alike (b.dequeue noResend).1 (b'.dequeue noResend).1 := by
  by_cases waits : b.Waits noResend
  · rw [dequeue_waits waits, dequeue_waits ((h.waits_iff noResend).mpr waits)]
    exact ⟨rfl, h⟩
  · obtain ⟨e, free, -, taken⟩ := dequeue_takes waits
    obtain ⟨e', free', -, taken'⟩ := dequeue_takes (mt (h.waits_iff noResend).mp waits)
    rw [h.first, h.frameIn] at taken'
    rw [taken, taken']
    exact ⟨rfl, h.advance free free' _⟩

theorem handsOut (h : Alike b b') (takes : List Bool) : b'.handsOut takes = b.handsOut takes := by
  induction takes generalizing b b' with
  | nil => rfl
  | cons noResend takes ih =>
    obtain ⟨same, alike⟩ := h.dequeue noResend
    rw [handsOut_cons, handsOut_cons, same, ih alike]

end Alike

theorem handsOut_of_pendingCount_zero {b : RaopBuffer δ} (none : b.pendingCount = 0)
    (takes : List Bool) : b.handsOut takes = [] := by
  induction takes with
  | nil => rfl
  | cons noResend takes ih =>
    rw [handsOut_cons, dequeue_waits (waits_of_pendingCount_zero none noResend), ih]
    rfl

section Queue

variable [AlacDecode δ] (cbc : AesSession → List UInt8 → List UInt8)

/-- Without a resynchronisation a rejected packet leaves the buffer alike. -/
theorem Queued.alike {b b' : RaopBuffer δ} {data : List UInt8} {seqnum : BitVec 16} {code : Int}
    (queued : Queued cbc b data seqnum b' code) (window : Window b)
    (inside : b.isEmpty = true ∨ dist seqnum b.firstSeqnum < 32) (refused : code ≠ 1) :
    Alike b b' := by
  have self : Alike b b := ⟨rfl, rfl, rfl, rfl, rfl, fun _ => rfl, fun _ _ => rfl⟩
  cases queued with
  | duplicate => exact self
  | rejected other decoded _ =>
    have free := window.free inside other
    refine ⟨rfl, rfl, rfl, rfl, rfl, ?_, ?_⟩
    · intro i
      change ((b.setEntry _ _).entryAt i).available = _
      rw [entryAt_setEntry]
      split
      · rename_i same
        rw [same, free]
        rfl
      · rfl
    · intro i available
      change (b.setEntry _ _).entryAt i = _
      rw [entryAt_setEntry, if_neg]
      rintro rfl
      exact Bool.false_ne_true (free.symm.trans available)
  | accepted => exact absurd rfl refused

/-- A packet that is rejected after a resynchronisation leaves nothing pending. -/
theorem Queued.pendingCount_flush {b b' : RaopBuffer δ} {data : List UInt8} {seqnum : BitVec 16}
    {code : Int} (queued : Queued cbc (b.flush seqnum.toNat) data seqnum b' code)
    (refused : code ≠ 1) : b'.pendingCount = 0 := by
  have alike := queued.alike cbc (represents_flush b _).window (.inr (dist_flush_lt b _)) refused
  rw [pendingCount, alike.first, alike.last, flush_firstSeqnum, flush_lastSeqnum,
    BitVec.sub_add_cancel, dist_self]
  split <;> rfl

end Queue

/-- A stereo `L16` packet with half a frame. -/
def brokenPacket (hi lo : UInt8) : List UInt8 :=
  [0x80, 0x60, hi, lo, 0, 0, 0, 0, 0, 0, 0, 0, 0x40, 0x00]

/-- A stereo `L16` buffer in which packet 1 waits. -/
def oneWaiting : RaopBuffer Unit :=
  (run (@call Unit silentAlac fun _ block => block) (fresh none (.pcm ⟨2, 44100⟩) 16378 704)
    [.queue (stereoPacket 0 1) true]).1

end Shairplay.Raop.RaopBuffer
