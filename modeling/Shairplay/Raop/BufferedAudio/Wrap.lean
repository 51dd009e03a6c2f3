import Shairplay.Lib.Serial
import Shairplay.Raop.BufferedAudio.Steps

/-!
# Timestamps around the wrap

Frames are kept in the order of their timestamps as plain 32-bit numbers. Whether a frame is
stale or due is decided by the sign of a wrapped difference. The two orders agree on timestamps
that are less than half of the circle apart as plain numbers. A buffer that holds frames from
both sides of the wrap is kept with its latest frames in front.
-/

namespace Shairplay.Raop.BufferedAudio

open Lib Crypto OrderedMap
open Shairplay.Codec (AacCodec StreamResample)

def halfCircle : Nat := 2147483648

theorem halfCircle_pos : 0 < halfCircle := Nat.zero_lt_succ _

/-- The timestamps lie on one side of the wrap. -/
def Unwrapped (timestamps : List (BitVec 32)) : Prop :=
  ∀ a ∈ timestamps, ∀ b ∈ timestamps, b.toNat < a.toNat + halfCircle

instance (timestamps : List (BitVec 32)) : Decidable (Unwrapped timestamps) :=
  @List.decidableBAll _ _ (fun _ => List.decidableBAll _ timestamps) timestamps

/-- The buffered timestamps follow `earliest` around the circle. Together with a lead before it
they take less than half of the circle. -/
structure SerialSpan (buffer : FrameMap) (earliest : BitVec 32) (lead : Nat) : Prop where
  held : earliest ∈ buffer
  within : ∀ ts ∈ buffer, Serial.dist ts earliest + lead < halfCircle

theorem keys_ascending (buffer : FrameMap) : buffer.keys.Pairwise fun a b => a.toNat < b.toNat := by
  apply Std.TreeMap.ordered_keys.imp
  intro a b before
  exact BitVec.lt_def.mp (compareOfLessAndEq_eq_lt.mp before)

theorem head_keys_le {buffer : FrameMap} {first ts : BitVec 32}
    (head : buffer.keys.head? = some first) (there : ts ∈ buffer) : first.toNat ≤ ts.toNat := by
  obtain ⟨rest, keys⟩ := List.head?_eq_some_iff.mp head
  have mem : ts ∈ buffer.keys := Std.TreeMap.mem_keys.mpr there
  have ascending := keys_ascending buffer
  rw [keys] at mem ascending
  rcases List.mem_cons.mp mem with rfl | later
  · exact le_rfl
  · exact ((List.pairwise_cons.mp ascending).1 ts later).le

/-- Of two numbers in the order of the map, the sign of the wrapped difference tells whether the
second one is ahead by less than half of the circle. -/
theorem toInt_sub_pos_of_lt {a b : BitVec 32} (lt : a.toNat < b.toNat) :
    0 < (b - a).toInt ↔ b.toNat < a.toNat + halfCircle := by
  rw [Serial.toInt_sub_pos, Serial.dist_of_le lt.le, halfCircle]
  omega

namespace SerialSpan

variable {buffer : FrameMap} {earliest first : BitVec 32} {lead : Nat}

/-- The timestamps lie on one side of the wrap just when the first key is the earliest one. -/
theorem unwrapped_iff (span : SerialSpan buffer earliest lead)
    (head : buffer.keys.head? = some first) : Unwrapped buffer.keys ↔ first = earliest := by
  have there : first ∈ buffer := Std.TreeMap.mem_keys.mp (List.mem_of_mem_head? head)
  have below := head_keys_le head span.held
  constructor
  · intro unwrapped
    have near := unwrapped first (Std.TreeMap.mem_keys.mpr there) earliest
      (Std.TreeMap.mem_keys.mpr span.held)
    have ahead := span.within first there
    -- otherwise the first key lies more than half of the circle ahead
    by_contra other
    have around := Serial.dist_add_dist other
    rw [Serial.dist_of_le below] at around
    simp only [halfCircle] at near ahead
    omega
  · rintro rfl
    intro a mem b mem'
    have low := head_keys_le head (Std.TreeMap.mem_keys.mp mem)
    have high := span.within b (Std.TreeMap.mem_keys.mp mem')
    rw [Serial.dist_of_le (head_keys_le head (Std.TreeMap.mem_keys.mp mem'))] at high
    omega

/-- Nothing lies before an anchor that is the lead before the earliest timestamp. -/
theorem not_stale (span : SerialSpan buffer earliest lead) {ts : BitVec 32} (there : ts ∈ buffer) :
    ¬ 0 < (earliest - BitVec.ofNat 32 lead - ts).toInt := by
  have near := span.within ts there
  have ahead := Serial.dist_sub_right ts earliest lead
  simp only [halfCircle] at near
  rw [Nat.mod_eq_of_lt (by omega)] at ahead
  rw [Serial.toInt_sub_pos]
  rintro ⟨apart, behind⟩
  have other : earliest - BitVec.ofNat 32 lead ≠ ts := fun same => by simp [same] at apart
  have around := Serial.dist_add_dist other
  omega

end SerialSpan

/-- What applying a rate other than zero leaves, by timestamps. -/
theorem applyPlayoutCommand_setRate (s : PlayoutState) (nowNs : Nat) {anchorRtp anchorTimeNs rate}
    (playing : rate ≠ 0) (ts : BitVec 32) :
    (s.applyPlayoutCommand nowNs (.setRate anchorRtp anchorTimeNs rate)).1.buffer[ts]? =
      if 0 < (s.resumeAnchor (BitVec.ofNat 32 anchorRtp) - ts).toInt then none
      else s.buffer[ts]? := by
  have removed := getElem?_eraseAll_filter (m := s.buffer) (k := ts)
    fun ts => decide (0 < (s.resumeAnchor (BitVec.ofNat 32 anchorRtp) - ts).toInt)
  simp only [decide_eq_true_eq] at removed
  simp only [PlayoutState.applyPlayoutCommand, if_neg playing]
  exact removed

/-- Resuming removes no frame and starts the lead before the earliest one, just when the buffer
lies on one side of the wrap. -/
theorem resume_keeps_iff (s : PlayoutState) (nowNs anchorRtp anchorTimeNs rate : Nat)
    (earliest : BitVec 32) (playing : rate ≠ 0)
    (span : SerialSpan s.buffer earliest (s.sampleRate / 10)) :
    ((∀ ts : BitVec 32,
        (s.applyPlayoutCommand nowNs (.setRate anchorRtp anchorTimeNs rate)).1.buffer[ts]? =
          s.buffer[ts]?) ∧
      (s.applyPlayoutCommand nowNs (.setRate anchorRtp anchorTimeNs rate)).1.anchorRtp =
        earliest - BitVec.ofNat 32 (s.sampleRate / 10)) ↔ Unwrapped s.buffer.keys := by
  obtain ⟨first, head⟩ : ∃ first, s.buffer.keys.head? = some first :=
    Option.isSome_iff_exists.mp <| List.isSome_head?.mpr <|
      List.ne_nil_of_mem (Std.TreeMap.mem_keys.mpr span.held)
  have anchor : s.resumeAnchor (BitVec.ofNat 32 anchorRtp) =
      first - BitVec.ofNat 32 (s.sampleRate / 10) := by
    simp only [PlayoutState.resumeAnchor, head]
  have anchored : (s.applyPlayoutCommand nowNs (.setRate anchorRtp anchorTimeNs rate)).1.anchorRtp =
      first - BitVec.ofNat 32 (s.sampleRate / 10) := by
    simp only [PlayoutState.applyPlayoutCommand, if_neg playing]
    exact anchor
  rw [span.unwrapped_iff head, anchored]
  constructor
  · rintro ⟨-, same⟩
    exact sub_left_inj.mp same
  · rintro rfl
    refine ⟨?_, rfl⟩
    intro ts
    rw [applyPlayoutCommand_setRate s nowNs playing, anchor]
    by_cases there : ts ∈ s.buffer
    · exact if_neg (span.not_stale there)
    · rw [Std.TreeMap.getElem?_eq_none there, ite_self]

def stampedPacket (timestamp : List UInt8) : List UInt8 :=
  [0x80, 0, 0, 0] ++ timestamp ++ [0x16, 0, 0, 0] ++ List.replicate 8 0 ++
    List.replicate 16 0 ++ List.replicate 8 0

/-- A frame from before the wrap, and one from behind it. -/
def wrappingPackets : List Event :=
  [.packet (stampedPacket [0xff, 0xff, 0xd8, 0xf0]), .payload,
    .packet (stampedPacket [0, 0, 0, 0]), .payload]

/-- Two frames on one side of the wrap. -/
def adjacentPackets : List Event :=
  [.packet (stampedPacket [0, 0, 0, 1]), .payload, .packet (stampedPacket [0, 0, 0, 2]), .payload]

theorem SerialSpan.pair {buffer : FrameMap} {a b earliest : BitVec 32} {lead : Nat}
    (keys : buffer.keys = [a, b]) (held : earliest ∈ [a, b])
    (first : Serial.dist a earliest + lead < halfCircle)
    (second : Serial.dist b earliest + lead < halfCircle) : SerialSpan buffer earliest lead := by
  constructor
  · rwa [← Std.TreeMap.mem_keys, keys]
  · intro ts there
    rw [← Std.TreeMap.mem_keys, keys] at there
    rcases List.mem_pair.mp there with rfl | rfl
    · exact first
    · exact second

/-- Of two frames 10000 samples apart, the earlier one is removed as stale, because the wrap
lies between them. -/
theorem resume_drops_earliest :
    SerialSpan (pairRun wrappingPackets).1.playout.buffer 4294957296
        ((pairRun wrappingPackets).1.playout.sampleRate / 10) ∧
      (pairRun wrappingPackets).1.playout.buffer.keys = [0, 4294957296] ∧
      ((pairRun wrappingPackets).1.playout.applyPlayoutCommand 0
        (.setRate 4294957296 0 1)).1.buffer.keys = [0] := by
  have keys : (pairRun wrappingPackets).1.playout.buffer.keys = [0, 4294957296] := by
    decide +kernel
  refine ⟨.pair keys ?_ ?_ ?_, keys, ?_⟩ <;> decide +kernel

/-- Two frames on one side of the wrap stay. -/
theorem resume_keeps_adjacent :
    (pairRun adjacentPackets).1.playout.buffer.keys = [1, 2] ∧
      (∀ ts : BitVec 32, ((pairRun adjacentPackets).1.playout.applyPlayoutCommand 0
        (.setRate 0 0 1)).1.buffer[ts]? = (pairRun adjacentPackets).1.playout.buffer[ts]?) ∧
      ((pairRun adjacentPackets).1.playout.applyPlayoutCommand 0 (.setRate 0 0 1)).1.anchorRtp =
        1 - BitVec.ofNat 32 ((pairRun adjacentPackets).1.playout.sampleRate / 10) := by
  have keys : (pairRun adjacentPackets).1.playout.buffer.keys = [1, 2] := by decide +kernel
  have span : SerialSpan (pairRun adjacentPackets).1.playout.buffer 1
      ((pairRun adjacentPackets).1.playout.sampleRate / 10) := by
    refine .pair keys ?_ ?_ ?_ <;> decide +kernel
  have unwrapped : Unwrapped (pairRun adjacentPackets).1.playout.buffer.keys := by
    rw [keys]
    decide +kernel
  exact ⟨keys, (resume_keeps_iff _ 0 0 0 1 1 (by decide) span).mpr unwrapped⟩

/-- The timestamps of the frames that were passed to the session, in order. -/
def processed (log : List Action) : List (BitVec 32) :=
  log.filterMap fun action =>
    match action with
    | .audioProcess timestamp _ => some timestamp
    | _ => none

theorem processed_append (log actions : List Action) :
    processed (log ++ actions) = processed log ++ processed actions :=
  List.filterMap_append

theorem processed_eq_nil {log : List Action}
    (quiet : ∀ timestamp frame, .audioProcess timestamp frame ∉ log) : processed log = [] := by
  refine List.filterMap_eq_nil_iff.mpr ?_
  intro action mem
  cases action with
  | audioProcess timestamp frame => exact absurd mem (quiet timestamp frame)
  | _ => rfl

def PlayoutState.due (s : PlayoutState) (nowNs : Nat) : List (BitVec 32) :=
  (s.ready nowNs).map Prod.fst

theorem PlayoutState.due_ascending (s : PlayoutState) (nowNs : Nat) :
    (s.due nowNs).Pairwise fun a b => a.toNat < b.toNat := by
  have ascending := keys_ascending s.buffer
  rw [← Std.TreeMap.map_fst_toList_eq_keys] at ascending
  exact ascending.sublist (List.filter_sublist.map Prod.fst)

/-- Less than half of the circle apart as plain numbers. -/
def Near (a b : BitVec 32) : Prop :=
  b.toNat < a.toNat + halfCircle ∧ a.toNat < b.toNat + halfCircle

instance : Std.Symm Near := ⟨fun _ _ near => near.symm⟩

theorem Near.rfl (a : BitVec 32) : Near a a :=
  ⟨Nat.lt_add_of_pos_right halfCircle_pos, Nat.lt_add_of_pos_right halfCircle_pos⟩

/-- The order of the map is the serial order just when there is no wrap among the timestamps. -/
theorem serial_iff_unwrapped {timestamps : List (BitVec 32)}
    (ascending : timestamps.Pairwise fun a b => a.toNat < b.toNat) :
    (timestamps.Pairwise fun a b => 0 < (b - a).toInt) ↔ Unwrapped timestamps := by
  constructor
  · intro serial
    have near : timestamps.Pairwise Near := (ascending.and serial).imp fun both =>
      ⟨(toInt_sub_pos_of_lt both.1).mp both.2,
        both.1.trans (Nat.lt_add_of_pos_right halfCircle_pos)⟩
    intro a mem b mem'
    exact (near.forall_of_forall (fun x _ => Near.rfl x) mem mem').1
  · intro unwrapped
    refine ascending.imp_of_mem ?_
    intro a b mem mem' lt
    exact (toInt_sub_pos_of_lt lt).mpr (unwrapped a mem b mem')

namespace Engine

variable {κ ρ : Type} [AacCodec κ] [StreamResample ρ]
  {config : OutputConfig} {aead : Aead} {key : List UInt8} {e e' : Engine κ ρ} {event : Event}
  {actions : List Action}

/-- An iteration that took `due` has passed on the frames of the log, and has the others left. -/
def Underway (due : List (BitVec 32)) (e : Engine κ ρ) (log : List Action) : Prop :=
  ∃ left, processed log ++ left = due ∧
    ∀ batch, e.delivery = .playing batch → batch.ready.map Prod.fst = left

/-- Until the thread has the lock again, only its own calls pass frames on. -/
theorem Underway.step {due : List (BitVec 32)} {log : List Action} (underway : Underway due e log)
    (step : Step config aead key e event e' actions) (same : ∀ nowNs, event ≠ .deliver nowNs) :
    Underway due e' (log ++ actions) := by
  obtain ⟨left, passed, remaining⟩ := underway
  rw [Underway, processed_append]
  cases step with
  | idle | sent | applied | read | rejected | undecoded | closed =>
    exact ⟨left, by simpa [processed] using passed, remaining⟩
  | stored => exact ⟨left, by simpa [processed] using passed, remaining⟩
  | @changed packet reads long changes =>
    have quiet : processed (e.changeFormat config (ssrcOf packet)).2 = [] := by
      refine processed_eq_nil ?_
      intro timestamp frame mem
      obtain ⟨error, is⟩ := changeFormat_actions _ mem
      cases is
    rw [quiet, List.append_nil]
    exact ⟨left, passed, remaining⟩
  | ended nowNs => exact absurd rfl (same nowNs)
  | took nowNs => exact absurd rfl (same nowNs)
  | @flushed batch playing flush =>
    refine ⟨left, by simpa [processed] using passed, ?_⟩
    rintro _ ⟨⟩
    exact remaining batch playing
  | @played batch timestamp frame rest playing flush ready =>
    have front := remaining batch playing
    rw [ready, List.map_cons] at front
    refine ⟨rest.map Prod.fst, ?_, ?_⟩
    · rw [← passed, ← front]
      simp [processed]
    · rintro batch ⟨⟩
      rfl
  | finished playing done =>
    refine ⟨left, by simpa [processed] using passed, ?_⟩
    rintro batch ⟨⟩

/-- The critical section of an iteration that goes on. -/
theorem deliver_took (nowNs : Nat) (locking : e.delivery = .locking)
    (awake : e.playout.waits = false) (running : e.playout.stopped = false) :
    Engine.step config aead key e (.deliver nowNs) =
      (e.openSession.1.takeReady nowNs, e.openSession.2) := by
  simp [Engine.step, Engine.deliver, locking, awake, running]

omit [AacCodec κ] [StreamResample ρ] in
theorem processed_openSession : processed e.openSession.2 = [] := by
  refine processed_eq_nil ?_
  intro timestamp frame mem
  obtain ⟨format, is⟩ := openSession_actions _ mem
  cases is

/-- Before the thread has the lock again, it passes on frames in the order it took them. -/
theorem processed_initial (nowNs : Nat) (locking : e.delivery = .locking)
    (awake : e.playout.waits = false) (running : e.playout.stopped = false) {events : List Event}
    (one : ∀ event ∈ events, ∀ nowNs, event ≠ .deliver nowNs) :
    processed (Machine.run (Engine.step config aead key) e (.deliver nowNs :: events)).2 <+:
      e.playout.due nowNs := by
  have start : Underway (e.playout.due nowNs) (e.openSession.1.takeReady nowNs)
      e.openSession.2 := by
    refine ⟨e.playout.due nowNs, by rw [processed_openSession, List.nil_append], ?_⟩
    intro batch playing
    rw [takeReady_delivery] at playing
    cases playing
    rfl
  have always : Machine.Always (Engine.step config aead key)
      (fun _ event => ∀ nowNs, event ≠ .deliver nowNs) (e.openSession.1.takeReady nowNs) events :=
    Machine.always_of_forall one
  obtain ⟨left, passed, -⟩ := Machine.Always.run_history
    (fun e log event underway same => underway.step (step_listed event) same) start always
  rw [Machine.run_cons, deliver_took nowNs locking awake running]
  exact ⟨left, passed⟩

/-- With a session and nothing to flush, one call passes on one frame. -/
theorem play_all {batch : Batch} (playing : e.delivery = .playing batch)
    (opened : e.session.isSome = true) (flush : batch.flush = false) :
    processed (Machine.run (Engine.step config aead key) e
      (List.replicate batch.ready.length .play)).2 = batch.ready.map Prod.fst := by
  obtain ⟨format, session⟩ := Option.isSome_iff_exists.mp opened
  generalize frames : batch.ready = ready
  induction ready generalizing e batch with
  | nil => rfl
  | cons entry rest ih =>
    have call : Engine.step config aead key e .play =
        ({ e with delivery := .playing { batch with ready := rest } },
          [.audioProcess entry.1 entry.2]) := by
      simp [Engine.step, Engine.play, playing, session, flush, frames]
    rw [List.length_cons, List.replicate_succ, Machine.run_cons, call, processed_append]
    have later := @ih { e with delivery := .playing { batch with ready := rest } }
      { batch with ready := rest } rfl opened flush session rfl
    rw [later]
    rfl

/-- Left to itself, the thread passes on every frame that it took. -/
theorem processed_all (nowNs : Nat) (locking : e.delivery = .locking)
    (awake : e.playout.waits = false) (running : e.playout.stopped = false) :
    ∃ calls, processed (Machine.run (Engine.step config aead key) e
      (.deliver nowNs :: List.replicate calls .play)).2 = e.playout.due nowNs := by
  have taken : (e.openSession.1.takeReady nowNs).delivery =
      .playing ⟨e.playout.rate, e.playout.flushPending, e.playout.ready nowNs⟩ := takeReady_delivery
  have opened := @isSome_takeReady_session _ _ e nowNs
  obtain ⟨format, session⟩ := Option.isSome_iff_exists.mp opened
  simp only [Machine.run_cons, deliver_took nowNs locking awake running, processed_append,
    processed_openSession, List.nil_append]
  generalize e.openSession.1.takeReady nowNs = t at taken opened session
  cases flush : e.playout.flushPending with
  | false => exact ⟨_, play_all taken opened flush⟩
  | true =>
    refine ⟨(e.playout.ready nowNs).length + 1, ?_⟩
    have call : Engine.step config aead key t .play =
        ({ t with delivery := .playing ⟨e.playout.rate, false, e.playout.ready nowNs⟩ },
          [.audioFlush]) := by
      simp [Engine.step, Engine.play, taken, session, flush]
    rw [List.replicate_succ, Machine.run_cons, call, processed_append]
    exact @play_all _ _ _ _ config aead key _ ⟨e.playout.rate, false, e.playout.ready nowNs⟩
      rfl opened rfl

/-- An iteration passes its frames on in serial order, whatever the other threads do meanwhile,
just when the frames that are due lie on one side of the wrap. -/
theorem batch_serial_iff (config : OutputConfig) (aead : Aead) (key : List UInt8)
    (e : Engine κ ρ) (nowNs : Nat) (locking : e.delivery = .locking)
    (awake : e.playout.waits = false) (running : e.playout.stopped = false) :
    (∀ events : List Event, (∀ event ∈ events, ∀ nowNs, event ≠ .deliver nowNs) →
      (processed (Machine.run (Engine.step config aead key) e
        (.deliver nowNs :: events)).2).Pairwise fun a b => 0 < (b - a).toInt) ↔
      Unwrapped (e.playout.due nowNs) := by
  rw [← serial_iff_unwrapped (e.playout.due_ascending nowNs)]
  constructor
  · intro serial
    obtain ⟨calls, all⟩ := @processed_all _ _ _ _ config aead key e nowNs locking awake running
    rw [← all]
    apply serial
    intro event mem nowNs
    rw [List.eq_of_mem_replicate mem]
    exact Event.noConfusion
  · intro serial events one
    exact serial.sublist (processed_initial nowNs locking awake running one).sublist

end Engine

/-- Playing starts before the frames arrive. -/
def wrappingRun : List Event := [.send (.setRate 4294957296 0 1), .command 0] ++ wrappingPackets

/-- After a second both frames are due, and the later one is passed on first. -/
theorem batch_plays_backwards :
    (pairRun wrappingRun).1.playout.buffer.keys = [0, 4294957296] ∧
      Serial.dist (0 : BitVec 32) 4294957296 = 10000 ∧
      processed (pairRun (wrappingRun ++ [.deliver 1000000000, .play, .play])).2 =
        [0, 4294957296] := by
  decide +kernel

def adjacentRun : List Event := [.send (.setRate 0 0 1), .command 0] ++ adjacentPackets

/-- Adjacent frames are passed on in order, also if another frame arrives in between. -/
theorem batch_serial_adjacent :
    (pairRun adjacentRun).1.playout.due 1000000000 = [1, 2] ∧
      (processed (Machine.run (@Engine.step _ _ pairCodec noResampler nativeOutput tagCipher [])
        (pairRun adjacentRun).1 [.deliver 1000000000, .play, .packet (stampedPacket [0, 0, 0, 0]),
          .payload, .play]).2).Pairwise fun a b => 0 < (b - a).toInt := by
  have due : (pairRun adjacentRun).1.playout.due 1000000000 = [1, 2] := by decide +kernel
  refine ⟨due, ?_⟩
  have ordered := (@Engine.batch_serial_iff _ _ pairCodec noResampler nativeOutput tagCipher []
    (pairRun adjacentRun).1 1000000000 rfl (by decide +kernel) (by decide +kernel)).mpr
    (by rw [due]; decide +kernel)
  exact ordered [.play, .packet (stampedPacket [0, 0, 0, 0]), .payload, .play] (by simp)

end Shairplay.Raop.BufferedAudio
