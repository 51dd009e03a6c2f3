import Shairplay.Raop.Buffer.Calls
import Shairplay.Raop.Rtp

/-!
# Playing what is due

Both receive tasks play frames until the buffer hands out none. For one that retransmits, a
missing packet is waited for as long as fewer than 32 numbers are pending, so fewer than 32
are pending when the task waits for its next packet.
-/

namespace Shairplay.Raop

open Lib Serial
open Shairplay.Codec (StreamResample)

namespace Player

variable {δ ρ : Type} [StreamResample ρ]

theorem process_buffer (p : Player δ ρ) (samples : List Sample) :
    (p.process samples).1.buffer = p.buffer := by
  rw [process]
  split <;> rfl

theorem process_resampler (p : Player δ ρ) (samples : List Sample) :
    (p.process samples).1.resampler.isSome = p.resampler.isSome := by
  rw [process]
  split
  · rename_i made
    rw [made]
    rfl
  · rfl

theorem playLoop_resampler (noResend : Bool) (rounds : Nat) (p : Player δ ρ) :
    (playLoop noResend rounds p).1.resampler.isSome = p.resampler.isSome := by
  induction rounds generalizing p with
  | zero => rfl
  | succ rounds ih =>
    rw [playLoop]
    split
    · rfl
    · exact (ih _).trans (process_resampler _ _)

/-- What taking a frame keeps is kept by playing. -/
theorem playLoop_keeps {noResend : Bool} {P : RaopBuffer δ → Prop}
    (takes : ∀ b b' frame, P b → b.dequeue noResend = (b', some frame) → P b') (rounds : Nat)
    {p : Player δ ρ} (start : P p.buffer) : P (playLoop noResend rounds p).1.buffer := by
  induction rounds generalizing p with
  | zero => exact start
  | succ rounds ih =>
    rw [playLoop]
    split
    · exact start
    · rename_i b frame taken
      apply ih
      rw [process_buffer]
      exact takes _ b frame start taken

/-- With more rounds than frames that can be due, the loop ends because none is left. -/
theorem playLoop_exhausts {noResend : Bool} {rounds : Nat} {p : Player δ ρ}
    (enough : seqnumCmp p.buffer.lastSeqnum p.buffer.firstSeqnum + 1 < rounds) :
    ((playLoop noResend rounds p).1.buffer.dequeue noResend).2 = none := by
  induction rounds generalizing p with
  | zero =>
    have idle : p.buffer.Waits noResend := .inl (.inr (by exact_mod_cast Int.le_of_lt enough))
    rw [playLoop, RaopBuffer.dequeue_waits idle]
  | succ rounds ih =>
    rw [playLoop]
    split
    · rename_i played
      rw [played]
    · rename_i buffer samples played
      apply ih
      rw [process_buffer]
      rcases p.buffer.dequeue_cases noResend with none | ⟨-, due, e, frame, -, taken, -⟩
      · cases none.symm.trans played
      · cases taken.symm.trans played
        show seqnumCmp p.buffer.lastSeqnum (p.buffer.firstSeqnum + 1) + 1 < rounds
        simp only [seqnumCmp, BitVec.toInt_eq_toNat_cond, BitVec.toNat_sub, BitVec.toNat_add,
          BitVec.reduceToNat] at due enough ⊢
        omega

theorem play_exhausts (noResend : Bool) (p : Player δ ρ) :
    ((play noResend p).1.buffer.dequeue noResend).2 = none := by
  apply playLoop_exhausts
  omega

/-- `play` goes on until no frame is due. -/
theorem play_waits (noResend : Bool) (p : Player δ ρ) :
    (play noResend p).1.buffer.Waits noResend := by
  have exhausted := play_exhausts noResend p
  by_contra ready
  obtain ⟨e, -, -, taken⟩ := RaopBuffer.dequeue_takes ready
  rw [taken] at exhausted
  cases exhausted

end Player

namespace RaopBuffer

variable {δ : Type}

/-- The numbers from the start of the window to its end, also while the buffer counts as
empty. -/
def span (b : RaopBuffer δ) : Nat := dist (b.lastSeqnum + 1) b.firstSeqnum

theorem pendingCount_le_span (b : RaopBuffer δ) : b.pendingCount ≤ b.span := by
  rw [pendingCount]
  split
  · exact Nat.zero_le _
  · exact Nat.le_refl _

/-- Room for one number more. -/
def Slack (b : RaopBuffer δ) : Prop := b.span ≤ 31

/-- At most a full window, with room for one number more unless frames can be taken. -/
structure Due (b : RaopBuffer δ) : Prop where
  span : b.span ≤ 32
  empty : b.isEmpty = true → b.span ≤ 31

theorem Slack.due {b : RaopBuffer δ} (slack : Slack b) : Due b :=
  ⟨Nat.le_succ_of_le slack, fun _ => slack⟩

/-- The number after the newest is inside the window. -/
theorem Slack.not_farAhead {b : RaopBuffer δ} (slack : Slack b) :
    b.isFarAhead (b.lastSeqnum + 1) = false := by
  rw [isFarAhead, decide_eq_false_iff_not]
  simp only [Slack, span, seqnumCmp, Serial.dist, raopBufferLength, BitVec.toInt_eq_toNat_cond,
    BitVec.toNat_sub, BitVec.toNat_add, BitVec.toNat_ofNat] at slack ⊢
  omega

theorem Slack.flush {b : RaopBuffer δ} (slack : Slack b) (nextSeq : Int) :
    Slack (b.flush nextSeq) := by
  unfold RaopBuffer.flush
  split
  · exact slack
  · simp [Slack, span]

theorem Due.take {b b' : RaopBuffer δ} {noResend : Bool} {frame : List Sample} (due : Due b)
    (taken : b.dequeue noResend = (b', some frame)) : Due b' := by
  rcases b.dequeue_cases noResend with none | ⟨nonempty, pending, e, _, -, takes, -⟩
  · cases none.symm.trans taken
  · cases takes.symm.trans taken
    rw [buflen_eq due.span] at pending
    have moved : dist (b.lastSeqnum + 1) (b.firstSeqnum + 1) = b.span - 1 :=
      dist_add_right _ _ 1 (by exact_mod_cast pending)
    refine ⟨?_, ?_⟩
    · exact moved.le.trans ((Nat.sub_le _ _).trans due.span)
    · intro empty
      cases nonempty.symm.trans empty

theorem Due.slack {b : RaopBuffer δ} {noResend : Bool} (due : Due b) (waits : b.Waits noResend) :
    Slack b := by
  have buflen : seqnumCmp b.lastSeqnum b.firstSeqnum + 1 = b.span := buflen_eq due.span
  show b.span ≤ 31
  rcases waits with (empty | nothing) | ⟨-, -, room⟩
  · exact due.empty empty
  · omega
  · simp only [raopBufferLength] at room
    omega

section Queue

variable [AlacDecode δ] {cbc : AesSession → List UInt8 → List UInt8} {b b' : RaopBuffer δ}
  {data : List UInt8} {seqnum : BitVec 16} {code : Int}

/-- The ends of the window after a packet. -/
theorem Queued.ends (queued : Queued cbc b data seqnum b' code) :
    (b'.isEmpty = b.isEmpty ∧ b'.span = b.span) ∨
      b'.isEmpty = false ∧ (b'.span = 1 ∨ b'.firstSeqnum = b.firstSeqnum ∧
        b.isEmpty = false ∧ 0 < seqnumCmp seqnum b.lastSeqnum ∧ b'.lastSeqnum = seqnum) := by
  cases queued with
  | duplicate => exact .inl ⟨rfl, rfl⟩
  | rejected => exact .inl ⟨rfl, rfl⟩
  | @accepted codec samples _ =>
    cases empty : b.isEmpty with
    | true =>
      obtain ⟨first, last⟩ := accepting_of_empty data seqnum codec samples empty
      refine .inr ⟨updateWindow_isEmpty _ _, .inl ?_⟩
      rw [span, first, last, dist_succ_self]
    | false =>
      obtain ⟨first, last⟩ := accepting_of_nonempty data seqnum codec samples empty
      by_cases newer : 0 < seqnumCmp seqnum b.lastSeqnum
      · rw [if_pos newer] at last
        exact .inr ⟨updateWindow_isEmpty _ _, .inr ⟨first, rfl, newer, last⟩⟩
      · rw [if_neg newer] at last
        refine .inl ⟨updateWindow_isEmpty _ _, ?_⟩
        rw [span, first, last, span]

/-- Queueing a packet of the window leaves at most a full one. -/
theorem Slack.queued (slack : Slack b) (inside : b.isEmpty = true ∨ dist seqnum b.firstSeqnum < 32)
    (queued : Queued cbc b data seqnum b' code) : Due b' := by
  rcases queued.ends with ⟨_, same⟩ | ⟨nonempty, one | ⟨first, was, _, last⟩⟩
  · have kept : Slack b' := same.le.trans slack
    exact kept.due
  · have kept : Slack b' := one.le.trans (by decide)
    exact kept.due
  · have inside := inside.resolve_left (by simp [was])
    refine ⟨?_, fun empty => by cases nonempty.symm.trans empty⟩
    rw [span, first, last, dist_succ_of_lt inside.le]
    exact inside

theorem Slack.queue (slack : Slack b) (data : List UInt8) (useSeqnum : Bool) :
    Due (b.queue cbc data useSeqnum).1 := by
  have offered := queue_offered cbc b data useSeqnum
  generalize (b.queue cbc data useSeqnum).1 = after, (b.queue cbc data useSeqnum).2 = code
    at offered ⊢
  cases offered with
  | malformed => exact slack.due
  | stale => exact slack.due
  | near _ fresh near queued => exact slack.queued (inside_of_near fresh near) queued
  | resync _ _ _ queued => exact (slack.flush _).queued (.inr (dist_flush_lt b _)) queued

/-- A packet that is not newer than the newest leaves room for one number more, whether it is
put into its slot or starts the window anew. -/
theorem Slack.queue_old (slack : Slack b) (data : List UInt8)
    (old : b.isEmpty = false → seqnumCmp (rtpSeqnum data) b.lastSeqnum ≤ 0) :
    Slack (b.queue cbc data true).1 := by
  have offered := queue_offered cbc b data true
  generalize (b.queue cbc data true).1 = after, (b.queue cbc data true).2 = code at offered ⊢
  cases offered with
  | malformed => exact slack
  | stale => exact slack
  | near _ _ _ queued =>
    rcases queued.ends with ⟨_, same⟩ | ⟨_, one | ⟨_, nonempty, newer, _⟩⟩
    · exact same.le.trans slack
    · exact one.le.trans (by decide)
    · exact absurd newer (Int.not_lt.mpr (old nonempty))
  | resync _ _ _ queued =>
    rcases queued.ends with ⟨_, same⟩ | ⟨_, one | ⟨first, _, _, last⟩⟩
    · exact same.le.trans (slack.flush _)
    · exact one.le.trans (by decide)
    · rw [Slack, span, first, last, flush_firstSeqnum, dist_succ_self]
      decide

end Queue

end RaopBuffer

/-- Playing leaves room for one number more. -/
theorem Player.play_slack {δ ρ : Type} [StreamResample ρ] (noResend : Bool) {p : Player δ ρ}
    (due : p.buffer.Due) : (p.play noResend).1.buffer.Slack := by
  have kept : (p.play noResend).1.buffer.Due :=
    playLoop_keeps (fun _ _ _ due taken => due.take taken) _ due
  exact kept.slack (play_waits noResend p)

end Shairplay.Raop
