import Shairplay.Raop.Buffer.Refinement

/-!
# Calls of a client in either mode

A client queues packets by their own sequence number or by a local one, takes frames and
flushes. `Queued` and `Offered` list everything that queueing a packet can do; what is proved
about `queue` elsewhere is a case analysis of these two. The ring invariant holds after any
sequence of calls.
-/

namespace Shairplay.Raop.RaopBuffer

open Lib Serial Playout Machine

variable {δ : Type}

/-- A call of a client. -/
inductive Call
  | queue (data : List UInt8) (useSeqnum : Bool)
  | dequeue (noResend : Bool)
  | flush (nextSeq : Int)

/-- What a call returns. -/
inductive Reply
  | queued (code : Int)
  | dequeued (frame : Option (List Sample))
  deriving DecidableEq

/-- The sequence number in the header of a packet. -/
def rtpSeqnum (data : List UInt8) : BitVec 16 :=
  ((data.getD 2 0).toBitVec.setWidth 16 <<< 8) ||| (data.getD 3 0).toBitVec.setWidth 16

def pendingCount (b : RaopBuffer δ) : Nat :=
  if b.isEmpty then 0 else dist (b.lastSeqnum + 1) b.firstSeqnum

theorem updateWindow_ends (b : RaopBuffer δ) (seqnum : BitVec 16) (nonempty : b.isEmpty = false) :
    (b.updateWindow seqnum).firstSeqnum = b.firstSeqnum ∧
      (b.updateWindow seqnum).lastSeqnum =
        if 0 < seqnumCmp seqnum b.lastSeqnum then seqnum else b.lastSeqnum := by
  simp only [updateWindow, nonempty, Bool.false_eq_true, if_false]
  split <;> exact ⟨rfl, rfl⟩

section Queue

variable [AlacDecode δ] (cbc : AesSession → List UInt8 → List UInt8)

def call (b : RaopBuffer δ) : Call → RaopBuffer δ × List Reply
  | .queue data useSeqnum =>
    ((b.queue cbc data useSeqnum).1, [.queued (b.queue cbc data useSeqnum).2])
  | .dequeue noResend => ((b.dequeue noResend).1, [.dequeued (b.dequeue noResend).2])
  | .flush nextSeq => (b.flush nextSeq, [])

/-- The buffer with a decoded packet in its slot. -/
def accepting (b : RaopBuffer δ) (data : List UInt8) (seqnum : BitVec 16) (codec : Codec δ)
    (samples : List Sample) : RaopBuffer δ :=
  RaopBuffer.updateWindow
    (RaopBuffer.store
      { b.setEntry (slot seqnum) (b.entryAt (slot seqnum)).clear with
        codec, silenceSamples := codec.nextSilence b.silenceSamples samples }
      data seqnum samples) seqnum

omit [AlacDecode δ] in
theorem accepting_of_empty {b : RaopBuffer δ} (data : List UInt8) (seqnum : BitVec 16)
    (codec : Codec δ) (samples : List Sample) (empty : b.isEmpty = true) :
    (b.accepting data seqnum codec samples).firstSeqnum = seqnum ∧
      (b.accepting data seqnum codec samples).lastSeqnum = seqnum :=
  updateWindow_of_empty _ seqnum empty

omit [AlacDecode δ] in
theorem accepting_of_nonempty {b : RaopBuffer δ} (data : List UInt8) (seqnum : BitVec 16)
    (codec : Codec δ) (samples : List Sample) (nonempty : b.isEmpty = false) :
    (b.accepting data seqnum codec samples).firstSeqnum = b.firstSeqnum ∧
      (b.accepting data seqnum codec samples).lastSeqnum =
        if 0 < seqnumCmp seqnum b.lastSeqnum then seqnum else b.lastSeqnum :=
  updateWindow_ends _ seqnum nonempty

/-- What queueing under an admissible sequence number can do. -/
inductive Queued (b : RaopBuffer δ) (data : List UInt8) (seqnum : BitVec 16) :
    RaopBuffer δ → Int → Prop
  | duplicate : (b.entryAt (slot seqnum)).available = true →
      (b.entryAt (slot seqnum)).seqnum = seqnum → Queued b data seqnum b 0
  | rejected {codec : Codec δ} {code : Int} :
      ¬ ((b.entryAt (slot seqnum)).available = true ∧ (b.entryAt (slot seqnum)).seqnum = seqnum) →
      b.decodePacket cbc data seqnum = (codec, .rejected code) → code ≠ 1 →
      Queued b data seqnum
        { b.setEntry (slot seqnum) (b.entryAt (slot seqnum)).clear with codec } code
  | accepted {codec : Codec δ} {samples : List Sample} :
      b.decodePacket cbc data seqnum = (codec, .samples samples) →
      Queued b data seqnum (b.accepting data seqnum codec samples) 1

theorem queueInWindow_queued (b : RaopBuffer δ) (data : List UInt8) (seqnum : BitVec 16) :
    Queued cbc b data seqnum (b.queueInWindow cbc data seqnum).1
      (b.queueInWindow cbc data seqnum).2 := by
  simp only [queueInWindow]
  split
  · rename_i duplicate
    rw [Bool.and_eq_true, decide_eq_true_eq, seqnumCmp_eq_zero] at duplicate
    exact .duplicate duplicate.1 duplicate.2
  · rename_i other
    rw [Bool.and_eq_true, decide_eq_true_eq, seqnumCmp_eq_zero] at other
    have same := decodePacket_setEntry cbc b data seqnum (b.entryAt (slot seqnum)).clear rfl
    unfold fillSlot
    rw [same]
    cases decoded : b.decodePacket cbc data seqnum with
    | mk codec result =>
      cases result with
      | rejected code =>
        exact .rejected other decoded (Codec.rejected_ne_one (congrArg Prod.snd decoded))
      | samples samples => exact .accepted decoded

/-- What queueing a packet can do. -/
inductive Offered (b : RaopBuffer δ) (data : List UInt8) (useSeqnum : Bool) :
    RaopBuffer δ → Int → Prop
  | malformed : ¬ (12 ≤ data.length ∧ data.length ≤ raopPacketLen) → Offered b data useSeqnum b (-1)
  | stale : 12 ≤ data.length ∧ data.length ≤ raopPacketLen →
      b.isStale (b.packetSeqnum data useSeqnum) = true → Offered b data useSeqnum b 0
  | near {b' : RaopBuffer δ} {code : Int} : 12 ≤ data.length ∧ data.length ≤ raopPacketLen →
      b.isStale (b.packetSeqnum data useSeqnum) = false →
      b.isFarAhead (b.packetSeqnum data useSeqnum) = false →
      Queued cbc b data (b.packetSeqnum data useSeqnum) b' code → Offered b data useSeqnum b' code
  | resync {b' : RaopBuffer δ} {code : Int} : 12 ≤ data.length ∧ data.length ≤ raopPacketLen →
      b.isStale (b.packetSeqnum data useSeqnum) = false →
      b.isFarAhead (b.packetSeqnum data useSeqnum) = true →
      Queued cbc (b.flush (b.packetSeqnum data useSeqnum).toNat) data
        (b.packetSeqnum data useSeqnum) b' code →
      Offered b data useSeqnum b' code

theorem queue_offered (b : RaopBuffer δ) (data : List UInt8) (useSeqnum : Bool) :
    Offered cbc b data useSeqnum (b.queue cbc data useSeqnum).1 (b.queue cbc data useSeqnum).2 := by
  unfold queue
  split
  · rename_i malformed
    exact .malformed malformed
  · rename_i size
    rw [not_not] at size
    dsimp only
    split
    · rename_i stale
      exact .stale size stale
    · rename_i fresh
      rw [Bool.not_eq_true] at fresh
      split
      · rename_i far
        exact .resync size fresh far (queueInWindow_queued cbc _ data _)
      · rename_i near
        rw [Bool.not_eq_true] at near
        exact .near size fresh near (queueInWindow_queued cbc _ data _)

end Queue

/-- A `dequeue` call finds nothing pending, or waits for a missing packet. -/
def Waits (b : RaopBuffer δ) (noResend : Bool) : Prop :=
  (b.isEmpty = true ∨ seqnumCmp b.lastSeqnum b.firstSeqnum + 1 ≤ 0) ∨
    (noResend = false ∧ (b.entryAt (slot b.firstSeqnum)).available = false ∧
      seqnumCmp b.lastSeqnum b.firstSeqnum + 1 < raopBufferLength)

def frameIn (b : RaopBuffer δ) (e : BufferEntry) : List Sample :=
  if e.available then e.audioBuffer.take e.audioBufferLen
  else List.replicate (min b.silenceSamples b.frameCapacity) 0

theorem dequeue_waits {b : RaopBuffer δ} {noResend : Bool} (waits : b.Waits noResend) :
    b.dequeue noResend = (b, none) := by
  unfold dequeue
  dsimp only
  rcases waits with idle | missing
  · exact if_pos idle
  · split
    · rfl
    · rw [if_pos]
      simpa using missing

theorem dequeue_takes {b : RaopBuffer δ} {noResend : Bool} (ready : ¬ b.Waits noResend) :
    ∃ e, e.available = false ∧
      (min b.silenceSamples b.frameCapacity ≤
          (b.entryAt (slot b.firstSeqnum)).audioBuffer.length →
        e.audioBuffer.length = (b.entryAt (slot b.firstSeqnum)).audioBuffer.length) ∧
      b.dequeue noResend =
        ({ b.setEntry (slot b.firstSeqnum) e with firstSeqnum := b.firstSeqnum + 1 },
          some (b.frameIn (b.entryAt (slot b.firstSeqnum)))) := by
  rw [Waits, not_or] at ready
  unfold dequeue
  dsimp only
  rw [if_neg ready.1, if_neg (by simpa using ready.2)]
  refine ⟨_, rfl, ?_, Prod.ext rfl ?_⟩
  · intro room
    simp only [BufferEntry.clear]
    split
    · rfl
    · rw [List.length_append, List.length_replicate, List.length_drop]
      omega
  · unfold frameIn
    cases (b.entryAt (slot b.firstSeqnum)).available with
    | true => rfl
    | false => simp

theorem waits_of_pendingCount_zero {b : RaopBuffer δ} (none : b.pendingCount = 0)
    (noResend : Bool) : b.Waits noResend := by
  left
  rw [pendingCount] at none
  split at none
  · rename_i empty
    exact .inl empty
  · right
    rw [buflen_eq (by omega), none]
    decide

namespace Window

variable {b : RaopBuffer δ}

theorem represents (h : Window b) : Represents b ⟨b.waiting, none⟩ :=
  ⟨h, fun _ => rfl, by simp⟩

/-- Under an admissible number the slot is free, or holds this very packet. -/
theorem free (h : Window b) {seqnum : BitVec 16}
    (inside : b.isEmpty = true ∨ dist seqnum b.firstSeqnum < 32)
    (other : ¬ ((b.entryAt (slot seqnum)).available = true ∧
      (b.entryAt (slot seqnum)).seqnum = seqnum)) :
    (b.entryAt (slot seqnum)).available = false := by
  by_contra available
  rw [Bool.not_eq_false] at available
  have nonempty := h.nonempty _ available
  have near := inside.resolve_left (by simp [nonempty])
  exact other ⟨available, h.seqnum_eq near available⟩

theorem dequeue (h : Window b) (noResend : Bool) : Window (b.dequeue noResend).1 := by
  obtain ⟨r, -, related⟩ := dequeue_simulates h.represents noResend
  exact related.window

variable [AlacDecode δ] (cbc : AesSession → List UInt8 → List UInt8)

theorem queueInWindow (h : Window b) (data : List UInt8) {seqnum : BitVec 16}
    (inside : b.isEmpty = true ∨ dist seqnum b.firstSeqnum < 32) :
    Window (b.queueInWindow cbc data seqnum).1 := by
  obtain ⟨r, -, related⟩ := queueInWindow_simulates cbc h.represents data inside
  exact related.window

theorem queue (h : Window b) (data : List UInt8) (useSeqnum : Bool) :
    Window (b.queue cbc data useSeqnum).1 := by
  unfold RaopBuffer.queue
  split
  · exact h
  · dsimp only
    split
    · exact h
    · rename_i fresh
      rw [Bool.not_eq_true] at fresh
      split
      · have flushed := (represents_flush b (b.packetSeqnum data useSeqnum).toNat).window
        exact flushed.queueInWindow cbc data (.inr (dist_flush_lt b _))
      · rename_i near
        rw [Bool.not_eq_true] at near
        exact h.queueInWindow cbc data (inside_of_near fresh near)

theorem call (h : Window b) (c : Call) : Window (b.call cbc c).1 := by
  cases c with
  | queue data useSeqnum => exact h.queue cbc data useSeqnum
  | dequeue noResend => exact h.dequeue noResend
  | flush nextSeq => exact (represents_flush b nextSeq).window

end Window

/-- The ring invariant holds after any calls. -/
theorem window_run [AlacDecode δ] (cbc : AesSession → List UInt8 → List UInt8)
    {rtpmap fmtp : String} {aes : Option AesSession} {b : RaopBuffer δ}
    (built : build rtpmap fmtp aes = some b) (calls : List Call) :
    Window (run (call cbc) b calls).1 :=
  run_keeps (fun _ c h => h.call cbc c) (represents_build built).window calls

/-- The window in the comparisons of the source. One number before the first is the end of a
window in which nothing is pending. -/
structure Ring (b : RaopBuffer δ) : Prop where
  length : b.isEmpty = false →
    -1 ≤ seqnumCmp b.lastSeqnum b.firstSeqnum ∧ seqnumCmp b.lastSeqnum b.firstSeqnum ≤ 31
  placed : ∀ i : Fin raopBufferLength, (b.entryAt i).available = true →
    (b.entryAt i).seqnum.toNat % 32 = i
  between : ∀ i : Fin raopBufferLength, (b.entryAt i).available = true →
    0 ≤ seqnumCmp (b.entryAt i).seqnum b.firstSeqnum ∧
      0 ≤ seqnumCmp b.lastSeqnum (b.entryAt i).seqnum
  unused : b.isEmpty = true → ∀ i : Fin raopBufferLength, (b.entryAt i).available = false

/-- The buffer in which a packet is stored: one that is far ahead discards what waits. -/
def receiving (b : RaopBuffer δ) (seqnum : BitVec 16) : RaopBuffer δ :=
  if b.isFarAhead seqnum then b.flush seqnum.toNat else b

theorem between_of_dist {first last seqnum : BitVec 16} (pending : dist (last + 1) first ≤ 32)
    (inside : dist seqnum first < dist (last + 1) first) :
    0 ≤ seqnumCmp seqnum first ∧ 0 ≤ seqnumCmp last seqnum := by
  simp only [seqnumCmp, Serial.dist, BitVec.toInt_eq_toNat_cond, BitVec.toNat_sub, BitVec.toNat_add,
    BitVec.reduceToNat] at *
  omega

namespace Window

variable {b : RaopBuffer δ}

theorem ring (h : Window b) : Ring b where
  length := by
    intro nonempty
    have pending := h.pending nonempty
    have length := buflen_eq pending
    omega
  placed := fun i available => congrArg Fin.val (h.placed i available)
  between := fun i available =>
    between_of_dist (h.pending (h.nonempty i available)) (h.inside i available)
  unused := by
    intro empty i
    by_contra available
    have nonempty := h.nonempty i (Bool.not_eq_false _ ▸ available)
    simp [empty] at nonempty

theorem receiving (h : Window b) (seqnum : BitVec 16) : Window (b.receiving seqnum) := by
  unfold RaopBuffer.receiving
  split
  · exact (represents_flush b _).window
  · exact h

variable [AlacDecode δ] (cbc : AesSession → List UInt8 → List UInt8)

/-- An accepted packet goes into a free slot, so every frame that waits is left as it is. -/
theorem entryAt_queueInWindow (h : Window b) {data : List UInt8} {seqnum : BitVec 16}
    (inside : b.isEmpty = true ∨ dist seqnum b.firstSeqnum < 32)
    (accepted : (b.queueInWindow cbc data seqnum).2 = 1) {i : Fin raopBufferLength}
    (waits : (b.entryAt i).available = true) :
    (b.queueInWindow cbc data seqnum).1.entryAt i = b.entryAt i := by
  have other : ¬ ((b.entryAt (slot seqnum)).available = true ∧
      (b.entryAt (slot seqnum)).seqnum = seqnum) := by
    intro duplicate
    simp [RaopBuffer.queueInWindow, duplicate, seqnumCmp_eq_zero] at accepted
  have elsewhere : i ≠ slot seqnum := by
    rintro rfl
    simp [h.free inside other] at waits
  have queued := queueInWindow_queued cbc b data seqnum
  generalize (b.queueInWindow cbc data seqnum).1 = after at queued ⊢
  generalize (b.queueInWindow cbc data seqnum).2 = code at queued accepted
  cases queued with
  | duplicate => cases accepted
  | rejected _ _ refused => exact absurd accepted refused
  | accepted =>
    rw [accepting, updateWindow_entryAt, entryAt_store_other elsewhere]
    exact (entryAt_setEntry b _ i _).trans (if_neg elsewhere)

end Window

/-- A packet is accepted in the buffer that receives it, and lies in the window there. -/
theorem queue_of_accepted [AlacDecode δ] (cbc : AesSession → List UInt8 → List UInt8)
    {b : RaopBuffer δ} {data : List UInt8} {useSeqnum : Bool}
    (accepted : (b.queue cbc data useSeqnum).2 = 1) :
    b.queue cbc data useSeqnum =
        (b.receiving (b.packetSeqnum data useSeqnum)).queueInWindow cbc data
          (b.packetSeqnum data useSeqnum) ∧
      ((b.receiving (b.packetSeqnum data useSeqnum)).isEmpty = true ∨
        dist (b.packetSeqnum data useSeqnum)
          (b.receiving (b.packetSeqnum data useSeqnum)).firstSeqnum < 32) := by
  unfold queue at accepted ⊢
  split at accepted
  · cases accepted
  · rename_i size
    rw [if_neg size]
    dsimp only at accepted ⊢
    cases stale : b.isStale (b.packetSeqnum data useSeqnum) with
    | true =>
      rw [if_pos stale] at accepted
      cases accepted
    | false =>
      cases far : b.isFarAhead (b.packetSeqnum data useSeqnum) with
      | true =>
        have starts : b.receiving (b.packetSeqnum data useSeqnum) =
            b.flush (b.packetSeqnum data useSeqnum).toNat := if_pos far
        rw [starts]
        refine ⟨?_, .inr (dist_flush_lt b _)⟩
        simp only [Bool.false_eq_true, if_false, if_true]
      | false =>
        have stays : b.receiving (b.packetSeqnum data useSeqnum) = b := by
          simp [receiving, far]
        rw [stays]
        refine ⟨?_, inside_of_near stale far⟩
        simp only [Bool.false_eq_true, if_false]

/-- The window of every buffer that calls can lead to. Its length is between -1 and 31, a frame
waits in the slot of its number and between the ends of the window, and nothing waits while the
buffer counts as empty. So a packet that is accepted never replaces a frame that waits. -/
theorem ring_run [AlacDecode δ] (cbc : AesSession → List UInt8 → List UInt8)
    {rtpmap fmtp : String} {aes : Option AesSession} {fresh : RaopBuffer δ}
    (built : build rtpmap fmtp aes = some fresh) (calls : List Call) :
    let b := (run (call cbc) fresh calls).1
    Ring b ∧ ∀ data useSeqnum, (b.queue cbc data useSeqnum).2 = 1 →
      ∀ i, ((b.receiving (b.packetSeqnum data useSeqnum)).entryAt i).available = true →
        (b.queue cbc data useSeqnum).1.entryAt i =
          (b.receiving (b.packetSeqnum data useSeqnum)).entryAt i := by
  intro b
  have window : Window b := window_run cbc built calls
  refine ⟨window.ring, ?_⟩
  intro data useSeqnum accepted i waits
  obtain ⟨queued, inside⟩ := queue_of_accepted cbc accepted
  rw [queued] at accepted ⊢
  exact (window.receiving _).entryAt_queueInWindow cbc inside accepted waits

/-- A stereo `L16` buffer that has received nothing. -/
def unusedStereo : RaopBuffer Unit := fresh none (.pcm ⟨2, 44100⟩) 16378 704

/-- Two packets around the wrap, with a gap between them. -/
def gapCalls : List Call :=
  [.queue (stereoPacket 0xff 0xfe) true, .queue (stereoPacket 0x00 0x00) true]

/-- The packet in the gap is accepted, and the one behind it still waits. -/
theorem ring_run_gap :
    let b := (run (@call Unit silentAlac fun _ block => block) unusedStereo gapCalls).1
    let packet := stereoPacket 0xff 0xff
    @build Unit silentAlac "96 L16/44100/2" "" none = some unusedStereo ∧ Ring b ∧
      (@queue Unit silentAlac (fun _ block => block) b packet true).2 = 1 ∧
      ((b.receiving (b.packetSeqnum packet true)).entryAt (slot 0)).available = true ∧
      (@queue Unit silentAlac (fun _ block => block) b packet true).1.entryAt (slot 0) =
        (b.receiving (b.packetSeqnum packet true)).entryAt (slot 0) := by
  intro b packet
  have built : @build Unit silentAlac "96 L16/44100/2" "" none = some unusedStereo := rfl
  have ring := @ring_run Unit silentAlac (fun _ block => block) _ _ _ _ built gapCalls
  obtain ⟨accepted, waits⟩ :
      (@queue Unit silentAlac (fun _ block => block) b packet true).2 = 1 ∧
        ((b.receiving (b.packetSeqnum packet true)).entryAt (slot 0)).available = true := by
    decide +kernel
  exact ⟨built, ring.1, accepted, waits, ring.2 packet true accepted (slot 0) waits⟩

end Shairplay.Raop.RaopBuffer
