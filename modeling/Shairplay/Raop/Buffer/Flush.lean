import Shairplay.Raop.Buffer.Calls

/-!
# A flush to a sequence number

After a flush to `n` the buffer expects packet `n`: the window starts there, so that older
packets are stale and the first frame handed out is that of `n`. This rests on the buffer
knowing that it has a window. A buffer that counts as empty takes the next packet it gets for
the start of its window, whatever it was flushed to.
-/

namespace Shairplay.Raop.RaopBuffer

open Lib Serial Playout Machine

variable {δ : Type}

/-- A packet within 31 of a sequence number, in serial order. -/
def Within (n : BitVec 16) (data : List UInt8) : Prop :=
  -31 ≤ seqnumCmp (rtpSeqnum data) n ∧ seqnumCmp (rtpSeqnum data) n ≤ 31

instance (n : BitVec 16) (data : List UInt8) : Decidable (Within n data) :=
  inferInstanceAs (Decidable (_ ∧ _))

/-- A call that queues a packet close to a sequence number, or takes a frame. -/
def CloseTo (n : BitVec 16) : Op → Prop
  | .queue data => Within n data
  | .dequeue _ => True
  | .flush _ => False

instance (n : BitVec 16) : (op : Op) → Decidable (CloseTo n op)
  | .queue data => inferInstanceAs (Decidable (Within n data))
  | .dequeue _ => .isTrue trivial
  | .flush _ => .isFalse id

/-- A packet that comes while the buffer counts as empty is the expected one. -/
def Awaited (n : BitVec 16) (b : RaopBuffer δ) : Op → Prop
  | .queue data => b.isEmpty = true → rtpSeqnum data = n
  | _ => True

instance (n : BitVec 16) (b : RaopBuffer δ) : (op : Op) → Decidable (Awaited n b op)
  | .queue _ => inferInstanceAs (Decidable (_ → _))
  | .dequeue _ => .isTrue trivial
  | .flush _ => .isTrue trivial

section Arithmetic

variable {n first last seqnum : BitVec 16}

/-- A packet before `n` is before every window that starts at most 32 behind it. -/
theorem stale_of_before (started : dist first n ≤ 32) (close : -31 ≤ seqnumCmp seqnum n)
    (before : seqnumCmp seqnum n < 0) : seqnumCmp seqnum first < 0 := by
  simp only [seqnumCmp, Serial.dist, BitVec.toInt_eq_toNat_cond, BitVec.toNat_sub] at *
  omega

/-- A close packet that is not stale is at most 31 behind `n`. -/
theorem dist_le_of_fresh (started : dist first n ≤ 32) (close : -31 ≤ seqnumCmp seqnum n)
    (near : seqnumCmp seqnum n ≤ 31) (fresh : ¬ seqnumCmp seqnum first < 0) :
    dist first n ≤ dist seqnum n ∧ dist seqnum n ≤ 31 := by
  simp only [seqnumCmp, Serial.dist, BitVec.toInt_eq_toNat_cond, BitVec.toNat_sub] at *
  omega

theorem not_farAhead_of_dist_le (started : dist first n ≤ dist seqnum n)
    (near : dist seqnum n ≤ 31) :
    ¬ 0 ≤ seqnumCmp seqnum (first + BitVec.ofNat 16 raopBufferLength) := by
  simp only [seqnumCmp, Serial.dist, raopBufferLength, BitVec.toInt_eq_toNat_cond,
    BitVec.toNat_sub, BitVec.toNat_add, BitVec.toNat_ofNat] at *
  omega

/-- As long as a number is pending, the window has not been taken to its end. -/
theorem dist_lt_of_pending (ordered : dist first n ≤ dist (last + 1) n)
    (pending : ¬ seqnumCmp last first + 1 ≤ 0) : dist first n < dist (last + 1) n := by
  rcases Nat.lt_or_eq_of_le ordered with strict | same
  · exact strict
  · rw [dist_inj same] at pending
    simp only [seqnumCmp, BitVec.toInt_eq_toNat_cond, BitVec.toNat_sub, BitVec.toNat_add,
      BitVec.reduceToNat] at pending
    omega

end Arithmetic

/-- The window of a buffer that was flushed to `n`. -/
structure Expects (n : BitVec 16) (b : RaopBuffer δ) : Prop where
  ordered : dist b.firstSeqnum n ≤ dist (b.lastSeqnum + 1) n
  bound : dist (b.lastSeqnum + 1) n ≤ 32
  waiting : b.isEmpty = true → b.firstSeqnum = n

theorem expects_flush (b : RaopBuffer δ) (n : BitVec 16) : Expects n (b.flush n.toNat) := by
  have first := flush_firstSeqnum b n
  have last := flush_lastSeqnum b n
  refine ⟨?_, ?_, fun _ => first⟩
  · rw [first, dist_self]
    exact Nat.zero_le _
  · rw [last, BitVec.sub_add_cancel, dist_self]
    decide

namespace Expects

variable {n : BitVec 16} {b : RaopBuffer δ}

/-- A close packet is stale, or lies in the window at most 31 behind `n`. -/
theorem position (h : Expects n b) {data : List UInt8} (close : Within n data)
    (awaited : b.isEmpty = true → rtpSeqnum data = n) :
    b.isStale (rtpSeqnum data) = true ∨
      b.isFarAhead (rtpSeqnum data) = false ∧ dist b.firstSeqnum n ≤ dist (rtpSeqnum data) n ∧
        dist (rtpSeqnum data) n ≤ 31 := by
  have started : dist b.firstSeqnum n ≤ 32 := Nat.le_trans h.ordered h.bound
  have inside : b.isStale (rtpSeqnum data) = false →
      dist b.firstSeqnum n ≤ dist (rtpSeqnum data) n ∧ dist (rtpSeqnum data) n ≤ 31 := by
    intro fresh
    cases empty : b.isEmpty with
    | true =>
      rw [awaited empty, h.waiting empty, dist_self]
      decide
    | false =>
      apply dist_le_of_fresh started close.1 close.2
      simpa [isStale, empty] using fresh
  cases stale : b.isStale (rtpSeqnum data) with
  | true => exact .inl rfl
  | false =>
    obtain ⟨ordered, near⟩ := inside stale
    refine .inr ⟨?_, ordered, near⟩
    rw [isFarAhead, decide_eq_false_iff_not]
    exact not_farAhead_of_dist_le ordered near

/-- Storing a packet at most 31 behind `n` keeps the window. -/
theorem accepting (h : Expects n b) {data : List UInt8} {codec : Codec δ} {samples : List Sample}
    {seqnum : BitVec 16} (ordered : dist b.firstSeqnum n ≤ dist seqnum n)
    (near : dist seqnum n ≤ 31) : Expects n (b.accepting data seqnum codec samples) := by
  have grown : dist (seqnum + 1) n = dist seqnum n + 1 := dist_succ_of_lt (by omega)
  have nonempty : (b.accepting data seqnum codec samples).isEmpty = false :=
    updateWindow_isEmpty _ _
  cases empty : b.isEmpty with
  | true =>
    obtain ⟨first, last⟩ := accepting_of_empty data seqnum codec samples empty
    refine ⟨?_, ?_, fun again => absurd again (by simp [nonempty])⟩
    · rw [first, last]
      omega
    · rw [last]
      omega
  | false =>
    obtain ⟨first, last⟩ := accepting_of_nonempty data seqnum codec samples empty
    refine ⟨?_, ?_, fun again => absurd again (by simp [nonempty])⟩
    · rw [first, last]
      split
      · omega
      · exact h.ordered
    · rw [last]
      split
      · omega
      · exact h.bound

theorem dequeue (h : Expects n b) (noResend : Bool) : Expects n (b.dequeue noResend).1 := by
  by_cases waits : b.Waits noResend
  · rw [dequeue_waits waits]
    exact h
  · obtain ⟨e, -, -, taken⟩ := dequeue_takes waits
    rw [taken]
    rw [Waits, not_or, not_or] at waits
    have strict : dist b.firstSeqnum n < dist (b.lastSeqnum + 1) n :=
      dist_lt_of_pending h.ordered waits.1.2
    have moved : dist (b.firstSeqnum + 1) n = dist b.firstSeqnum n + 1 :=
      dist_succ_of_lt (Nat.le_trans h.ordered h.bound)
    refine ⟨?_, h.bound, fun empty => absurd empty waits.1.1⟩
    change dist (b.firstSeqnum + 1) n ≤ dist (b.lastSeqnum + 1) n
    rw [moved]
    exact strict

variable [AlacDecode δ] (cbc : AesSession → List UInt8 → List UInt8)

theorem queued (h : Expects n b) {data : List UInt8} {seqnum : BitVec 16} {b' : RaopBuffer δ}
    {code : Int} (queued : Queued cbc b data seqnum b' code)
    (ordered : dist b.firstSeqnum n ≤ dist seqnum n) (near : dist seqnum n ≤ 31) :
    Expects n b' := by
  cases queued with
  | duplicate => exact h
  | rejected => exact ⟨h.ordered, h.bound, h.waiting⟩
  | accepted => exact h.accepting ordered near

theorem queue (h : Expects n b) {data : List UInt8} (close : Within n data)
    (awaited : b.isEmpty = true → rtpSeqnum data = n) : Expects n (b.queue cbc data true).1 := by
  have offered := queue_offered cbc b data true
  generalize (b.queue cbc data true).1 = after, (b.queue cbc data true).2 = code at offered ⊢
  cases offered with
  | malformed | stale => exact h
  | near _ fresh _ queued =>
    rcases h.position close awaited with stale | ⟨-, ordered, inside⟩
    · exact absurd (stale.symm.trans fresh) (by decide)
    · exact h.queued cbc queued ordered inside
  | resync _ fresh far _ =>
    rcases h.position close awaited with stale | ⟨near, -⟩
    · exact absurd (stale.symm.trans fresh) (by decide)
    · exact absurd (near.symm.trans far) (by decide)

/-- Queueing moves the start of the window only to where it is. -/
theorem queue_first (h : Expects n b) {data : List UInt8} (close : Within n data)
    (awaited : b.isEmpty = true → rtpSeqnum data = n) (start : b.firstSeqnum = n) :
    (b.queue cbc data true).1.firstSeqnum = n := by
  have offered := queue_offered cbc b data true
  generalize (b.queue cbc data true).1 = after, (b.queue cbc data true).2 = code at offered ⊢
  cases offered with
  | malformed | stale => exact start
  | near _ fresh _ queued =>
    cases queued with
    | duplicate | rejected => exact start
    | @accepted codec samples decoded =>
      cases empty : b.isEmpty with
      | true =>
        rw [(accepting_of_empty data _ codec samples empty).1]
        exact awaited empty
      | false =>
        rw [(accepting_of_nonempty data _ codec samples empty).1]
        exact start
  | resync _ fresh far _ =>
    rcases h.position close awaited with stale | ⟨near, -⟩
    · exact absurd (stale.symm.trans fresh) (by decide)
    · exact absurd (near.symm.trans far) (by decide)

/-- A packet before `n` is dropped. -/
theorem drops (h : Expects n b) {data : List UInt8} (close : Within n data)
    (awaited : b.isEmpty = true → rtpSeqnum data = n)
    (size : 12 ≤ data.length ∧ data.length ≤ raopPacketLen)
    (before : seqnumCmp (rtpSeqnum data) n < 0) : (b.queue cbc data true).2 = 0 := by
  have nonempty : b.isEmpty = false := by
    by_contra empty
    rw [awaited (Bool.eq_true_of_not_eq_false empty), seqnumCmp, BitVec.sub_self] at before
    exact absurd before (by decide)
  have started : dist b.firstSeqnum n ≤ 32 := Nat.le_trans h.ordered h.bound
  have stale : b.isStale (b.packetSeqnum data true) = true := by
    rw [isStale, nonempty, Bool.not_false, Bool.true_and, decide_eq_true_eq]
    exact stale_of_before started close.1 before
  unfold RaopBuffer.queue
  rw [if_neg (not_not.mpr size)]
  dsimp only
  rw [if_pos stale]

theorem step (h : Expects n b) {op : Op} (close : CloseTo n op) (awaited : Awaited n b op) :
    Expects n (b.step cbc op).1 := by
  cases op with
  | queue data => exact h.queue cbc close awaited
  | dequeue noResend => exact h.dequeue noResend
  | flush nextSeq => cases close

end Expects

/-- The window and the log behind a flush: before the first delivery the window starts at `n`,
and the first delivery is that of `n`. -/
structure Behind (n : BitVec 16) (b : RaopBuffer δ) (log : List (Event (BitVec 16) (List Sample))) :
    Prop where
  expects : Expects n b
  start : outKeys log = [] → b.firstSeqnum = n
  first : ∀ key ∈ (outKeys log).head?, key = n

section Runs

variable [AlacDecode δ] (cbc : AesSession → List UInt8 → List UInt8) {n : BitVec 16}
  {b : RaopBuffer δ} {log : List (Event (BitVec 16) (List Sample))}

omit [AlacDecode δ] in
theorem outKeys_append (log more : List (Event (BitVec 16) (List Sample))) :
    outKeys (log ++ more) = outKeys log ++ outKeys more :=
  List.filterMap_append

/-- Queueing delivers nothing. -/
theorem outKeys_queueEvents (b : RaopBuffer δ) (data : List UInt8) :
    outKeys (b.queueEvents cbc data) = [] := by
  unfold queueEvents acceptEvents
  split <;> split <;> rfl

theorem Behind.step (h : Behind n b log) {op : Op} (close : CloseTo n op)
    (awaited : Awaited n b op) : Behind n (b.step cbc op).1 (log ++ (b.step cbc op).2) := by
  have expects := h.expects.step cbc close awaited
  cases op with
  | queue data =>
    have same : outKeys (log ++ b.queueEvents cbc data) = outKeys log := by
      rw [outKeys_append, outKeys_queueEvents, List.append_nil]
    refine ⟨expects, ?_, ?_⟩
    · intro none
      exact h.expects.queue_first cbc close awaited (h.start (same.symm.trans none))
    · intro key head
      exact h.first key (same ▸ head)
  | dequeue noResend =>
    by_cases waits : b.Waits noResend
    · have stays := dequeue_waits waits
      have events : b.dequeueEvents noResend = [] := by rw [dequeueEvents, stays]
      change Behind n (b.dequeue noResend).1 (log ++ b.dequeueEvents noResend)
      rw [stays, events, List.append_nil]
      exact h
    · obtain ⟨e, -, -, taken⟩ := dequeue_takes waits
      have events : outKeys (log ++ b.dequeueEvents noResend) = outKeys log ++ [b.firstSeqnum] := by
        rw [outKeys_append, dequeueEvents, taken]
        rfl
      refine ⟨expects, ?_, ?_⟩
      · intro none
        exact absurd (events.symm.trans none) (by simp)
      · intro key head
        change key ∈ (outKeys (log ++ b.dequeueEvents noResend)).head? at head
        rw [events] at head
        cases keys : outKeys log with
        | nil =>
          rw [keys] at head
          cases head
          exact h.start keys
        | cons earlier rest =>
          rw [keys] at head
          cases head
          exact h.first key (by rw [keys]; rfl)
  | flush nextSeq => cases close

/-- The condition at every step, with the distance that the packets keep. -/
theorem behind_run (b : RaopBuffer δ) {ops : List Op} (close : ∀ op ∈ ops, CloseTo n op)
    (awaited : Always (step cbc) (Awaited n) (b.flush n.toNat) ops) :
    Behind n (run (step cbc) (b.flush n.toNat) ops).1 (run (step cbc) (b.flush n.toNat) ops).2 := by
  have both := awaited.and_mem close
  have start : Behind n (b.flush n.toNat) [] :=
    ⟨expects_flush b n, fun _ => flush_firstSeqnum b n, by simp [outKeys]⟩
  exact both.run_history (fun _ _ _ h met => h.step cbc met.2 met.1) start

/-- For every buffer and every `n`, in a run behind `flush(n)` whose packets lie within 31 of `n`
and in which a packet that comes while the buffer counts as empty is packet `n`: every packet
before `n` is dropped, and the first frame handed out is the one of `n`, which is what packet
`n` decoded to, or silence if it did not come. -/
theorem flush_expects (b : RaopBuffer δ) (n : BitVec 16) (ops : List Op)
    (close : ∀ op ∈ ops, CloseTo n op)
    (awaited : Always (step cbc) (Awaited n) (b.flush n.toNat) ops) :
    (∀ before data after, ops = before ++ .queue data :: after →
      12 ≤ data.length ∧ data.length ≤ raopPacketLen → seqnumCmp (rtpSeqnum data) n < 0 →
      ((run (step cbc) (b.flush n.toNat) before).1.queue cbc data true).2 = 0) ∧
    ∀ before key frame after,
      (run (step cbc) (b.flush n.toNat) ops).2 = before ++ .out key frame :: after →
      outKeys before = [] →
      key = n ∧ (acceptedSince n before = [frame] ∨ acceptedSince n before = [] ∧ Silent frame) := by
  constructor
  · rintro before data after rfl size older
    rw [always_append] at awaited
    have behind := behind_run cbc b (fun op mem => close op (List.mem_append_left _ mem)) awaited.1
    have near : CloseTo n (.queue data) := close _ (by simp)
    exact behind.expects.drops cbc near awaited.2.1 size older
  · intro before key frame after log first
    have behind := behind_run cbc b close awaited
    have mine : key = n := by
      apply behind.first key
      rw [log, outKeys_append, first]
      rfl
    obtain ⟨_, accepted, _⟩ := run_simulates (step_simulates cbc) (represents_flush b n.toNat) ops
    rw [log] at accepted
    exact ⟨mine, mine ▸ frame_of_accepts accepted⟩

end Runs

/-- Packets 99, 101 and 100, and two frames. -/
def aroundHundred : List Op :=
  [.queue (stereoPacket 0 99), .queue (stereoPacket 0 101), .queue (stereoPacket 0 100),
    .dequeue true, .dequeue true]

theorem flush_expects_hundred :
    let b := (run (@step Unit silentAlac fun _ block => block) unusedStereo
      [.queue (stereoPacket 0 50)]).1
    (∀ before data after, aroundHundred = before ++ .queue data :: after →
      12 ≤ data.length ∧ data.length ≤ raopPacketLen → seqnumCmp (rtpSeqnum data) 100 < 0 →
      (@queue Unit silentAlac (fun _ block => block)
        (run (@step Unit silentAlac fun _ block => block) (b.flush 100) before).1 data true).2
          = 0) ∧
    ∀ before key frame after,
      (run (@step Unit silentAlac fun _ block => block) (b.flush 100) aroundHundred).2 =
        before ++ .out key frame :: after →
      outKeys before = [] →
      key = 100 ∧
        (acceptedSince 100 before = [frame] ∨ acceptedSince 100 before = [] ∧ Silent frame) :=
  @flush_expects Unit silentAlac (fun _ block => block) _ 100 aroundHundred (by decide)
    (by decide +kernel)

/-- A buffer that has received nothing takes an older packet for the start of its window. -/
theorem flush_forgotten :
    (@queue Unit silentAlac (fun _ block => block) (unusedStereo.flush 100) (stereoPacket 0 99)
        true).2 = 1 ∧
      (run (@step Unit silentAlac fun _ block => block) (unusedStereo.flush 100)
        [.queue (stereoPacket 0 99), .dequeue true]).2 =
        [.accept 99 [1 / 2, -1 / 2], .out 99 [1 / 2, -1 / 2]] := by
  decide +kernel

end Shairplay.Raop.RaopBuffer
