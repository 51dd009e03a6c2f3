import Shairplay.Lib.Custody
import Shairplay.Raop.BufferedAudio.Steps

/-!
# Conservation of frames

The buffer does not know where a frame came from, and two frames may be equal. So a record is
kept beside the engine: every inserted frame has a ticket, and each critical section is
recorded as the movement of tickets that it is. The record follows the buffer and the frames
that the delivery thread has taken, in every interleaving of the threads.
-/

namespace Shairplay.Raop.BufferedAudio

open Lib Crypto OrderedMap Custody
open Shairplay.Codec (AacCodec StreamResample)

/-- Why a frame leaves the buffer. -/
inductive Reason
  /-- A delivery iteration takes it, for the timestamp that is due. -/
  | taken (targetRtp : BitVec 32)
  /-- Another frame is inserted with its timestamp. -/
  | replaced
  /-- A flush names its timestamp. -/
  | flushed (fromSeq untilSeq : Nat)
  /-- Playing starts behind it. -/
  | stale (anchorRtp : BitVec 32)
  /-- The stream is stopped, by a command or at its end. -/
  | stopped
  deriving DecidableEq

namespace Reason

def Covers : Reason → BitVec 32 → Prop
  | taken targetRtp, ts => 0 ≤ (targetRtp - ts).toInt
  | flushed fromSeq untilSeq, ts => fromSeq ≤ ts.toNat ∧ ts.toNat ≤ untilSeq
  | stale anchorRtp, ts => 0 < (anchorRtp - ts).toInt
  | replaced, _ => True
  | stopped, _ => True

def Takes : Reason → Prop
  | taken _ => True
  | _ => False

end Reason

abbrev FrameTicket := Ticket (BitVec 32) BufferedFrame

abbrev FrameEntry := Entry (BitVec 32) BufferedFrame Reason

/-- The frames that an iteration still has to play. -/
def Delivery.pending : Delivery → List (BitVec 32 × BufferedFrame)
  | .playing batch => batch.ready
  | _ => []

/-- The calls of `audio_process`. -/
def playedFrames (actions : List Action) : List (BitVec 32 × BufferedFrame) :=
  actions.filterMap fun
    | .audioProcess timestamp frame => some (timestamp, frame)
    | _ => none

def insertions (actions : List Action) : List (BitVec 32) :=
  actions.filterMap fun
    | .stored timestamp _ => some timestamp
    | _ => none

@[simp] theorem playedFrames_append (actions new : List Action) :
    playedFrames (actions ++ new) = playedFrames actions ++ playedFrames new := List.filterMap_append

@[simp] theorem insertions_append (actions new : List Action) :
    insertions (actions ++ new) = insertions actions ++ insertions new := List.filterMap_append

namespace Engine

variable {κ ρ : Type}

/-- The timestamps that are no longer in the buffer. -/
def lost (e e' : Engine κ ρ) : List (BitVec 32) :=
  e.playout.buffer.keys.filter fun ts => e'.playout.buffer[ts]?.isNone

/-- Why a command takes frames out of the buffer. -/
def commandReason (e e' : Engine κ ρ) : Option Reason :=
  e.commands.head?.map fun
    | .setRate _ _ _ => .stale e'.playout.anchorRtp
    | .flush fromSeq untilSeq => .flushed fromSeq untilSeq
    | .stop => .stopped

/-- The movement of frames in one event, from what is there before and after it. -/
def movement (e : Engine κ ρ) (event : Event) (e' : Engine κ ρ) (actions : List Action) :
    Move (BitVec 32) BufferedFrame Reason :=
  match event with
  | .send _ | .packet _ => .idle
  | .command _ =>
    match commandReason e e' with
    | some reason => .remove (lost e e') reason
    | none => .idle
  | .payload =>
    match (insertions actions).head?.bind fun ts =>
      e'.playout.buffer[ts]?.map fun frame => (ts, frame) with
    | some (ts, frame) => .insert ts frame .replaced
    | none => .idle
  | .closed => .remove (lost e e') .stopped
  | .deliver nowNs =>
    match e.delivery, e'.delivery with
    | .locking, .playing batch =>
      .take (batch.ready.map Prod.fst) (.taken (e.playout.targetRtp nowNs))
    | _, _ => .idle
  | .play =>
    if (playedFrames actions).isEmpty then
      match e'.delivery with
      | .playing _ => .idle
      | _ => .discard
    else .use

end Engine

/-- An engine with the record of its frames, and with what it has done so far. -/
structure Traced (κ ρ : Type) where
  engine : Engine κ ρ
  actions : List Action
  custody : Store (BitVec 32) BufferedFrame

namespace Traced

variable {κ ρ : Type} [AacCodec κ] [StreamResample ρ]
  (config : OutputConfig) (aead : Aead) (key : List UInt8)

def start : Traced κ ρ where
  engine := .start config
  actions := []
  custody := .empty

def step (t : Traced κ ρ) (event : Event) : Traced κ ρ × List FrameEntry :=
  let next := Engine.step config aead key t.engine event
  let recorded := t.custody.step (Engine.movement t.engine event next.1 next.2)
  ({ engine := next.1, actions := t.actions ++ next.2, custody := recorded.1 }, recorded.2)

/-- A recorded run of a stream from its start. -/
def run (events : List Event) : Traced κ ρ × List FrameEntry :=
  Machine.run (step config aead key) (start config) events

/-- The record does not influence the engine. -/
theorem machineRun_engine (t : Traced κ ρ) (events : List Event) :
    let traced := (Machine.run (step config aead key) t events).1
    let plain := Machine.run (Engine.step config aead key) t.engine events
    traced.engine = plain.1 ∧ traced.actions = t.actions ++ plain.2 := by
  induction events generalizing t with
  | nil => exact ⟨rfl, (List.append_nil _).symm⟩
  | cons event events ih =>
    obtain ⟨engine, actions⟩ := ih (step config aead key t event).1
    refine ⟨engine, actions.trans ?_⟩
    rw [Machine.run_cons]
    exact List.append_assoc _ _ _

theorem run_engine (events : List Event) :
    (run config aead key events : Traced κ ρ × List FrameEntry).1.engine =
        (Engine.run config aead key events).1 ∧
      (run config aead key events : Traced κ ρ × List FrameEntry).1.actions =
        (Engine.run config aead key events : Engine κ ρ × List Action).2 :=
  machineRun_engine config aead key (start config) events

end Traced

/-- The tickets stand for the frames in the buffer, for those that were taken, for the
insertions and for the calls of `audio_process`. -/
structure Linked {κ ρ : Type} (e : Engine κ ρ) (actions : List Action)
    (custody : Store (BitVec 32) BufferedFrame) (log : List FrameEntry) : Prop where
  held : ∀ ts : BitVec 32, (custody.held ts).map Ticket.item = e.playout.buffer[ts]?
  batch : custody.batch.map (fun ticket => (ticket.key, ticket.item)) = e.delivery.pending
  inserted : (entered log).map Ticket.key = insertions actions
  played : (used log).map (fun ticket => (ticket.key, ticket.item)) = playedFrames actions

namespace Linked

variable {κ ρ : Type} {e e' : Engine κ ρ} {actions new : List Action}
  {custody : Store (BitVec 32) BufferedFrame} {log : List FrameEntry}

variable (linked : Linked e actions custody log)
include linked

/-- Neither the buffer nor the delivery thread sees the event. -/
theorem idle (buffer : e'.playout.buffer = e.playout.buffer)
    (pending : e'.delivery.pending = e.delivery.pending) (stored : insertions new = [])
    (silent : playedFrames new = []) : Linked e' (actions ++ new) custody (log ++ []) where
  held := by
    rw [buffer]
    exact linked.held
  batch := by
    rw [pending]
    exact linked.batch
  inserted := by
    rw [List.append_nil, insertions_append, stored, List.append_nil]
    exact linked.inserted
  played := by
    rw [List.append_nil, playedFrames_append, silent, List.append_nil]
    exact linked.played

/-- Frames leave. -/
theorem remove
    (shrinks : ∀ (ts : BitVec 32) frame, e'.playout.buffer[ts]? = some frame →
      e.playout.buffer[ts]? = some frame)
    (pending : e'.delivery.pending = e.delivery.pending) (reason : Reason) :
    Linked e' (actions ++ []) (custody.step (.remove (Engine.lost e e') reason)).1
      (log ++ (custody.step (.remove (Engine.lost e e') reason)).2) where
  held := by
    intro ts
    by_cases gone : ts ∈ Engine.lost e e'
    · have absent : e'.playout.buffer[ts]? = none :=
        Option.isNone_iff_eq_none.mp (List.mem_filter.mp gone).2
      rw [absent, Store.step, Store.held_without, if_pos gone]
      rfl
    · rw [Store.step, Store.held_without, if_neg gone, linked.held ts]
      cases after : e'.playout.buffer[ts]? with
      | some frame => exact shrinks ts frame after
      | none =>
        apply Std.TreeMap.getElem?_eq_none
        intro there
        exact gone (List.mem_filter.mpr ⟨Std.TreeMap.mem_keys.mpr there, by rw [after]; rfl⟩)
  batch := by
    rw [pending]
    exact linked.batch
  inserted := by
    rw [List.append_nil, Store.step, entered_append, entered_departures, List.append_nil]
    exact linked.inserted
  played := by
    rw [List.append_nil, Store.step, used_append, used_departures, List.append_nil]
    exact linked.played

theorem insert (ts : BitVec 32) (frame : BufferedFrame)
    (packet : List UInt8) (buffer : e'.playout.buffer = e.playout.buffer.insert ts frame)
    (pending : e'.delivery.pending = e.delivery.pending) (reason : Reason) :
    Linked e' (actions ++ [.stored ts packet]) (custody.step (.insert ts frame reason)).1
      (log ++ (custody.step (.insert ts frame reason)).2) where
  held := by
    intro ts'
    rw [buffer, Std.TreeMap.getElem?_insert, Store.step, Store.held_enter]
    by_cases same : ts' = ts
    · subst same
      rw [if_pos rfl, if_pos Std.ReflCmp.compare_self]
      rfl
    · have other : ¬ compare ts ts' = .eq := fun eq =>
        same (Std.LawfulEqOrd.eq_of_compare eq).symm
      have unlisted : ts' ∉ [ts] := fun mem => same (List.mem_singleton.mp mem)
      rw [if_neg same, if_neg other, Store.held_without, if_neg unlisted]
      exact linked.held ts'
  batch := by
    rw [pending]
    exact linked.batch
  inserted := by
    rw [Store.step, ← List.append_assoc, entered_append, entered_append, entered_departures,
      List.append_nil, List.map_append, linked.inserted, insertions_append]
    rfl
  played := by
    rw [Store.step, ← List.append_assoc, used_append, used_append, used_departures,
      List.append_nil, used_entered, List.append_nil, linked.played, playedFrames_append]
    exact (List.append_nil _).symm

/-- The frames that are due are taken. -/
theorem take (conserved : Conserved Reason.Covers Reason.Takes custody log) {nowNs : Nat}
    (buffer : e'.playout.buffer = eraseAll e.playout.buffer ((e.playout.ready nowNs).map Prod.fst))
    (pending : e'.delivery.pending = e.playout.ready nowNs) (stored : insertions new = [])
    (silent : playedFrames new = []) (reason : Reason) :
    let move := Move.take ((e.playout.ready nowNs).map Prod.fst) reason
    Linked e' (actions ++ new) (custody.step move).1 (log ++ (custody.step move).2) where
  held := by
    intro ts
    rw [buffer, getElem?_eraseAll, ← linked.held ts]
    exact apply_ite (Option.map Ticket.item) _ _ _
  batch := by
    rw [pending]
    apply Store.map_under
    intro entry due
    have there := PlayoutState.getElem?_of_mem_ready due
    rw [← linked.held] at there
    obtain ⟨ticket, held, item⟩ := Option.map_eq_some_iff.mp there
    exact ⟨ticket, held, (conserved.held _ ticket held).1, item⟩
  inserted := by
    rw [insertions_append, stored, List.append_nil, Store.step, entered_append,
      entered_departures, List.append_nil]
    exact linked.inserted
  played := by
    rw [playedFrames_append, silent, List.append_nil, Store.step, used_append, used_departures,
      List.append_nil]
    exact linked.played

/-- The next frame that was taken is played. -/
theorem use {ts : BitVec 32} {frame : BufferedFrame} (buffer : e'.playout.buffer = e.playout.buffer)
    (pending : e.delivery.pending = (ts, frame) :: e'.delivery.pending) :
    Linked e' (actions ++ [.audioProcess ts frame])
      (custody.step (.use : Move (BitVec 32) BufferedFrame Reason)).1
      (log ++ (custody.step .use).2) := by
  have waiting := linked.batch
  rw [pending] at waiting
  obtain ⟨ticket, rest, batch, first, others⟩ := List.map_eq_cons_iff.mp waiting
  refine ⟨?_, ?_, ?_, ?_⟩
  · rw [buffer]
    exact linked.held
  · rw [Store.step, batch]
    exact others
  · rw [Store.step, batch, entered_append, insertions_append, List.map_append, linked.inserted]
    rfl
  · rw [Store.step, batch, used_append, playedFrames_append, List.map_append, linked.played]
    exact congrArg (playedFrames actions ++ [·]) first

end Linked

namespace Engine

variable {κ ρ : Type} {e e' : Engine κ ρ} {nowNs : Nat}

theorem mem_of_lost {ts : BitVec 32} (gone : ts ∈ lost e e') :
    ts ∈ e.playout.buffer ∧ e'.playout.buffer[ts]? = none := by
  obtain ⟨there, absent⟩ := List.mem_filter.mp gone
  exact ⟨Std.TreeMap.mem_keys.mp there, Option.isNone_iff_eq_none.mp absent⟩

theorem lost_of_same (same : e'.playout.buffer = e.playout.buffer) : lost e e' = [] := by
  apply List.eq_nil_iff_forall_not_mem.mpr
  intro ts gone
  obtain ⟨there, absent⟩ := mem_of_lost gone
  rw [same] at absent
  exact not_mem_of_getElem?_eq_none absent there

/-- Frames leave for a reason that applies to each of them. -/
theorem valid_remove {reason : Reason} (applies : ∀ ts ∈ lost e e', reason.Covers ts) :
    (Move.remove (lost e e') reason : Move (BitVec 32) BufferedFrame Reason).Valid
      Reason.Covers Reason.Takes :=
  ⟨Std.TreeMap.nodup_keys.filter _, applies⟩

/-- A command takes out frames that its reason applies to. -/
theorem covers_of_applied {command : PlayoutCommand} {rest : List PlayoutCommand}
    (queued : e.commands = command :: rest)
    (playout : e'.playout = (e.playout.applyPlayoutCommand nowNs command).1) {reason : Reason}
    (isReason : commandReason e e' = some reason) : ∀ ts ∈ lost e e', reason.Covers ts := by
  intro ts gone
  obtain ⟨there, absent⟩ := mem_of_lost gone
  rw [commandReason, queued, List.head?_cons, Option.map_some, playout] at isReason
  rw [playout] at absent
  cases command with
  | setRate anchorRtp anchorTimeNs rate =>
    cases isReason
    by_cases paused : rate = 0
    · rw [PlayoutState.applyPlayoutCommand, if_pos paused] at absent
      exact absurd there (not_mem_of_getElem?_eq_none absent)
    · rw [PlayoutState.applyPlayoutCommand, if_neg paused] at absent ⊢
      have stale := (List.mem_filter.mp (mem_of_getElem?_eraseAll there absent)).2
      have before := of_decide_eq_true stale
      exact before
  | flush fromSeq untilSeq =>
    cases isReason
    have flushed := (List.mem_filter.mp (mem_of_getElem?_eraseAll there absent)).2
    have within := of_decide_eq_true flushed
    exact within
  | stop =>
    cases isReason
    trivial

/-- The frames that are due have different timestamps, all of them due. -/
theorem valid_take :
    (Move.take ((e.playout.ready nowNs).map Prod.fst) (.taken (e.playout.targetRtp nowNs)) :
      Move (BitVec 32) BufferedFrame Reason).Valid Reason.Covers Reason.Takes := by
  refine ⟨?_, ?_, trivial⟩
  · have order := List.filter_sublist (p := fun entry : BitVec 32 × BufferedFrame =>
      decide (0 ≤ (e.playout.targetRtp nowNs - entry.1).toInt)) (l := e.playout.buffer.toList)
    have keys := order.map Prod.fst
    rw [Std.TreeMap.map_fst_toList_eq_keys] at keys
    exact Std.TreeMap.nodup_keys.sublist keys
  · intro ts mem
    obtain ⟨entry, ready, rfl⟩ := List.mem_map.mp mem
    have due := of_decide_eq_true (List.mem_filter.mp ready).2
    exact due

variable {event : Event} {actions new : List Action}
  {custody : Store (BitVec 32) BufferedFrame} {log : List FrameEntry}

/-- What an event does to the frames is recorded properly. -/
structure Recorded (e : Engine κ ρ) (actions : List Action) (event : Event) (e' : Engine κ ρ)
    (new : List Action) (custody : Store (BitVec 32) BufferedFrame) (log : List FrameEntry) :
    Prop where
  valid : (movement e event e' new).Valid Reason.Covers Reason.Takes
  linked : Linked e' (actions ++ new) (custody.step (movement e event e' new)).1
    (log ++ (custody.step (movement e event e' new)).2)

/-- An event without a movement. -/
theorem Recorded.of_idle (linked : Linked e actions custody log)
    (idle : movement e event e' new = .idle) (buffer : e'.playout.buffer = e.playout.buffer)
    (pending : e'.delivery.pending = e.delivery.pending) (stored : insertions new = [])
    (silent : playedFrames new = []) : Recorded e actions event e' new custody log where
  valid := by
    rw [idle]
    trivial
  linked := by
    rw [idle]
    exact linked.idle buffer pending stored silent

/-- An event in which frames leave. -/
theorem Recorded.of_remove (linked : Linked e actions custody log) {reason : Reason}
    (leaves : movement e event e' [] = .remove (lost e e') reason)
    (applies : ∀ ts ∈ lost e e', reason.Covers ts)
    (shrinks : ∀ (ts : BitVec 32) frame, e'.playout.buffer[ts]? = some frame →
      e.playout.buffer[ts]? = some frame)
    (pending : e'.delivery.pending = e.delivery.pending) :
    Recorded e actions event e' [] custody log where
  valid := by
    rw [leaves]
    exact valid_remove applies
  linked := by
    rw [leaves]
    exact linked.remove shrinks pending reason

/-- An event after which the delivery thread has nothing to play. -/
theorem Recorded.of_discard (linked : Linked e actions custody log)
    (ends : movement e event e' [] = .discard) (buffer : e'.playout.buffer = e.playout.buffer)
    (pending : e'.delivery.pending = []) : Recorded e actions event e' [] custody log where
  valid := by
    rw [ends]
    trivial
  linked := by
    rw [ends]
    exact
      { held := by rw [buffer]; exact linked.held
        batch := by rw [pending]; rfl
        inserted := by rw [List.append_nil, Store.step, List.append_nil]; exact linked.inserted
        played := by rw [List.append_nil, Store.step, List.append_nil]; exact linked.played }

/-- A thread that has nothing to do moves nothing. -/
theorem recorded_idle (linked : Linked e actions custody log) (event : Event) :
    Recorded e actions event e [] custody log := by
  have none_lost (reason : Reason) : ∀ ts ∈ lost e e, reason.Covers ts := by
    rw [lost_of_same rfl]
    intro ts mem
    cases mem
  cases event with
  | send | packet | payload => exact .of_idle linked rfl rfl rfl rfl rfl
  | command nowNs =>
    cases reason : commandReason e e with
    | none => exact .of_idle linked (by rw [movement, reason]) rfl rfl rfl rfl
    | some reason' =>
      exact .of_remove linked (by rw [movement, reason]) (none_lost reason')
        (fun _ _ held => held) rfl
  | closed => exact .of_remove linked rfl (none_lost .stopped) (fun _ _ held => held) rfl
  | deliver nowNs =>
    refine .of_idle linked ?_ rfl rfl rfl rfl
    cases delivery : e.delivery <;> simp only [movement, delivery]
  | play =>
    cases delivery : e.delivery with
    | playing batch =>
      refine .of_idle linked ?_ rfl rfl rfl rfl
      simp [movement, delivery, playedFrames]
    | locking | ended =>
      refine .of_discard linked ?_ rfl (by rw [delivery]; rfl)
      simp [movement, delivery, playedFrames]

variable [AacCodec κ] [StreamResample ρ] {config : OutputConfig} {aead : Aead} {key : List UInt8}

/-- A new format moves no frames. -/
theorem changeFormat_silent (ssrc : Shairplay.Codec.AudioSsrc) :
    insertions (e.changeFormat config ssrc).2 = [] ∧
      playedFrames (e.changeFormat config ssrc).2 = [] := by
  rw [changeFormat]
  split <;> exact ⟨rfl, rfl⟩

omit [AacCodec κ] [StreamResample ρ] in
theorem openSession_silent :
    insertions e.openSession.2 = [] ∧ playedFrames e.openSession.2 = [] := by
  rw [openSession]
  split <;> exact ⟨rfl, rfl⟩

/-- Every step of the engine is recorded properly. -/
theorem Step.recorded (step : Step config aead key e event e' new)
    (conserved : Conserved Reason.Covers Reason.Takes custody log)
    (linked : Linked e actions custody log) : Recorded e actions event e' new custody log := by
  cases step with
  | idle => exact recorded_idle linked event
  | sent | read | rejected | undecoded => exact .of_idle linked rfl rfl rfl rfl rfl
  | changed reads long changes =>
    obtain ⟨stored, silent⟩ := @changeFormat_silent κ ρ e _ _ config _
    exact .of_idle linked rfl rfl rfl stored silent
  | @applied nowNs command rest handling queued =>
    generalize after : ({ e with
      playout := (e.playout.applyPlayoutCommand nowNs command).1
      commands := rest
      handling := (e.playout.applyPlayoutCommand nowNs command).2 } : Engine κ ρ) = e'
    have playout : e'.playout = (e.playout.applyPlayoutCommand nowNs command).1 := by
      rw [← after]
    have pending : e'.delivery.pending = e.delivery.pending := by rw [← after]
    cases reason : commandReason e e' with
    | none =>
      rw [commandReason, queued] at reason
      cases reason
    | some reason' =>
      refine .of_remove linked (by rw [movement, reason])
        (covers_of_applied queued playout reason) ?_ pending
      intro ts frame held
      rw [playout] at held
      exact PlayoutState.getElem?_of_applyPlayoutCommand held
  | @stored packet plaintext frame incoming decrypted produced =>
    generalize after : ({ e with
      incoming := none
      receiver := (e.receiver.produce plaintext).1
      playout := { e.playout with
        buffer := e.playout.buffer.insert (timestampOf packet) frame } } : Engine κ ρ) = e'
    have buffer : e'.playout.buffer = e.playout.buffer.insert (timestampOf packet) frame := by
      rw [← after]
    have pending : e'.delivery.pending = e.delivery.pending := by rw [← after]
    have moves : movement e .payload e' [.stored (timestampOf packet) packet] =
        .insert (timestampOf packet) frame .replaced := by
      simp [movement, insertions, buffer]
    refine ⟨?_, ?_⟩
    · rw [moves]
      trivial
    · rw [moves]
      exact linked.insert _ frame packet buffer pending _
  | closed reads =>
    refine .of_remove linked rfl (fun _ _ => trivial) ?_ rfl
    intro ts frame held
    simp only [PlayoutState.close, Std.TreeMap.getElem?_emptyc] at held
    cases held
  | ended nowNs locking stopped =>
    refine .of_idle linked ?_ rfl (by rw [locking]; rfl) rfl rfl
    rw [movement, locking]
  | took nowNs locking awake running =>
    generalize after : e.openSession.1.takeReady nowNs = e'
    have delivery : e'.delivery =
        .playing ⟨e.playout.rate, e.playout.flushPending, e.playout.ready nowNs⟩ := by
      rw [← after]
      exact takeReady_delivery
    have buffer : e'.playout.buffer =
        eraseAll e.playout.buffer ((e.playout.ready nowNs).map Prod.fst) := by
      rw [← after]
      exact takeReady_buffer
    have moves : movement e (.deliver nowNs) e' e.openSession.2 =
        .take ((e.playout.ready nowNs).map Prod.fst) (.taken (e.playout.targetRtp nowNs)) := by
      rw [movement, locking, delivery]
    refine ⟨?_, ?_⟩
    · rw [moves]
      exact valid_take
    · rw [moves]
      exact linked.take conserved buffer (by rw [delivery]; rfl) openSession_silent.1
        openSession_silent.2 _
  | flushed playing flush =>
    exact .of_idle linked rfl rfl (by rw [playing]; rfl) rfl rfl
  | @played batch ts frame rest playing flush ready =>
    have pending : e.delivery.pending = (ts, frame) :: rest := by
      rw [playing]
      exact ready
    exact ⟨trivial, linked.use rfl pending⟩
  | finished playing done =>
    exact .of_discard linked rfl rfl rfl

omit [AacCodec κ] [StreamResample ρ] in
/-- Only a delivery iteration takes frames. -/
theorem delivers_of_taken {ticket : FrameTicket} {targetRtp : BitVec 32}
    (mem : .left ticket (.taken targetRtp) ∈ (custody.step (movement e event e' new)).2) :
    ∃ nowNs batch, event = .deliver nowNs ∧ e.delivery = .locking ∧
      e'.delivery = .playing batch := by
  cases event with
  | send | packet => cases mem
  | command nowNs =>
    rw [movement] at mem
    split at mem
    · rename_i reason isReason
      have same := reason_of_mem_departures mem
      obtain ⟨command, -, is⟩ := Option.map_eq_some_iff.mp isReason
      rw [← same] at is
      cases command <;> cases is
    · cases mem
  | payload =>
    rw [movement] at mem
    split at mem
    · rcases List.mem_append.mp mem with left | entered
      · cases reason_of_mem_departures left
      · cases List.mem_singleton.mp entered
    · cases mem
  | closed => cases reason_of_mem_departures mem
  | deliver nowNs =>
    rw [movement] at mem
    split at mem
    · exact ⟨nowNs, _, rfl, ‹_›, ‹_›⟩
    · cases mem
  | play =>
    rw [movement] at mem
    split at mem
    · split at mem <;> cases mem
    · obtain ⟨_, _, is⟩ := List.mem_map.mp mem
      cases is

theorem Step.stopped (step : Step config aead key e event e' new)
    (stopped : e.playout.stopped = true) : e'.playout.stopped = true := by
  cases step with
  | idle | sent | read | changed | rejected | undecoded | stored | ended | flushed | played
  | finished => exact stopped
  | @applied nowNs command rest handling queued =>
    cases command with
    | setRate anchorRtp anchorTimeNs rate =>
      dsimp only [PlayoutState.applyPlayoutCommand]
      split <;> exact stopped
    | flush fromSeq untilSeq => exact stopped
    | stop => rfl
  | closed reads => rfl
  | took nowNs locking awake running => cases running.symm.trans stopped

/-- A stopped stream takes no frames. -/
theorem Step.not_taken (step : Step config aead key e event e' new)
    (stopped : e.playout.stopped = true) (ticket : FrameTicket) (targetRtp : BitVec 32) :
    .left ticket (.taken targetRtp) ∉ (custody.step (movement e event e' new)).2 := by
  intro mem
  obtain ⟨nowNs, batch, rfl, locking, playing⟩ := delivers_of_taken mem
  cases step with
  | idle => cases locking.symm.trans playing
  | ended => cases playing
  | took _ _ awake running => cases running.symm.trans stopped

end Engine

/-- The frames of a run, by the record that was kept beside it. -/
structure FramesConserved {κ ρ : Type} (e : Engine κ ρ) (actions : List Action)
    (custody : Store (BitVec 32) BufferedFrame) (log : List FrameEntry) : Prop where
  /-- There is one ticket for each insertion. -/
  inserted : (entered log).map Ticket.key = insertions actions
  numbered : ((entered log).map Ticket.id).Nodup
  /-- The buffer holds the frames whose tickets are held. -/
  buffered : ∀ ts : BitVec 32, (custody.held ts).map Ticket.item = e.playout.buffer[ts]?
  /-- The calls of `audio_process` are those for tickets, and each has at most one. -/
  played : (used log).map (fun ticket => (ticket.key, ticket.item)) = playedFrames actions
  once : ((used log).map Ticket.id).Nodup
  /-- An inserted frame is in the buffer and has not left it, or it has left for exactly one
  reason. -/
  leaves : ∀ ticket ∈ entered log,
    custody.held ticket.key = some ticket ∧ reasons ticket.id log = [] ∨
      custody.held ticket.key ≠ some ticket ∧
        ∃ reason, reasons ticket.id log = [reason] ∧ reason.Covers ticket.key
  /-- What is played was inserted, and taken by a delivery iteration. -/
  taken : ∀ ticket ∈ used log, ticket ∈ entered log ∧
    ∃ targetRtp, reasons ticket.id log = [.taken targetRtp]

namespace Traced

variable {κ ρ : Type} [AacCodec κ] [StreamResample ρ]
  {config : OutputConfig} {aead : Aead} {key : List UInt8}

/-- The record is in order and follows the engine. -/
structure Kept (t : Traced κ ρ) (log : List FrameEntry) : Prop where
  conserved : Conserved Reason.Covers Reason.Takes t.custody log
  linked : Linked t.engine t.actions t.custody log

theorem Kept.step {t : Traced κ ρ} {log : List FrameEntry} (kept : Kept t log) (event : Event) :
    Kept (step config aead key t event).1 (log ++ (step config aead key t event).2) := by
  have listed := @Engine.step_listed κ ρ _ _ config aead key t.engine event
  have recorded := listed.recorded kept.conserved kept.linked
  exact ⟨kept.conserved.step recorded.valid, recorded.linked⟩

theorem kept_run (events : List Event) :
    Kept (run config aead key events : Traced κ ρ × List FrameEntry).1
      (run config aead key events : Traced κ ρ × List FrameEntry).2 := by
  have start : Kept (start config : Traced κ ρ) [] := by
    refine ⟨.empty, ?_⟩
    exact ⟨fun ts => Std.TreeMap.getElem?_emptyc.symm, rfl, rfl, rfl⟩
  exact Machine.run_history (P := Kept) (fun t log event kept => kept.step event) start events

omit [AacCodec κ] [StreamResample ρ] in
theorem Kept.framesConserved {t : Traced κ ρ} {log : List FrameEntry} (kept : Kept t log) :
    FramesConserved t.engine t.actions t.custody log where
  inserted := kept.linked.inserted
  numbered := by
    rw [kept.conserved.numbered]
    exact List.nodup_range
  buffered := kept.linked.held
  played := kept.linked.played
  once := by
    have once := kept.conserved.once
    rw [List.map_append] at once
    exact List.Nodup.of_append_left once
  leaves := by
    intro ticket mem
    by_cases held : t.custody.held ticket.key = some ticket
    · exact .inl ⟨held, (kept.conserved.held _ ticket held).2.2⟩
    · obtain there | left := kept.conserved.gone ticket mem
      · exact absurd there held
      · exact .inr ⟨held, left⟩
  taken := by
    intro ticket mem
    obtain ⟨enters, reason, left, takes⟩ :=
      kept.conserved.taken ticket (List.mem_append_left _ mem)
    cases reason with
    | taken targetRtp => exact ⟨enters, targetRtp, left⟩
    | _ => cases takes

/-- Nothing is taken after a stop. -/
theorem not_taken_of_stopped {t : Traced κ ρ} (stopped : t.engine.playout.stopped = true)
    (later : List Event) (ticket : FrameTicket) (targetRtp : BitVec 32) :
    .left ticket (.taken targetRtp) ∉ (Machine.run (step config aead key) t later).2 := by
  induction later generalizing t with
  | nil => exact List.not_mem_nil
  | cons event later ih =>
    have listed := @Engine.step_listed κ ρ _ _ config aead key t.engine event
    rw [Machine.run_cons, List.mem_append, not_or]
    exact ⟨listed.not_taken stopped ticket targetRtp, ih (listed.stopped stopped)⟩

end Traced

/-- In every interleaving of the threads, each inserted frame is played at most once, and each
frame that has left the buffer has left it for exactly one reason. Once the stream is stopped,
no delivery iteration takes a frame any more. -/
theorem frames_conserved {κ ρ : Type} [AacCodec κ] [StreamResample ρ] (config : OutputConfig)
    (aead : Aead) (key : List UInt8) (events : List Event) :
    let plain : Engine κ ρ × List Action := Engine.run config aead key events
    let traced : Traced κ ρ × List FrameEntry := Traced.run config aead key events
    traced.1.engine = plain.1 ∧ FramesConserved plain.1 plain.2 traced.1.custody traced.2 ∧
      (plain.1.playout.stopped = true → ∀ later ticket targetRtp, .left ticket (.taken targetRtp) ∉
          (Machine.run (Traced.step config aead key) traced.1 later).2) := by
  intro plain traced
  obtain ⟨engine, actions⟩ := @Traced.run_engine κ ρ _ _ config aead key events
  have kept : Traced.Kept traced.1 traced.2 := Traced.kept_run events
  refine ⟨engine, ?_, ?_⟩
  · have conserved := kept.framesConserved
    rw [engine, actions] at conserved
    exact conserved
  · intro stopped later ticket targetRtp
    exact Traced.not_taken_of_stopped (engine ▸ stopped) later ticket targetRtp

/-- Four frames, of which the second takes the place of the first, the third is flushed, the
second is played, and the last is there when the stream is stopped. -/
def stoppedEvents : List Event :=
  [.packet (audioPacket 1 1 0x16 0), .payload, .packet (audioPacket 2 1 0x16 0), .payload,
    .packet (audioPacket 3 9 0x16 0), .payload, .send (.flush 9 9), .command 0,
    .send (.setRate 0 0 1), .command 0, .deliver 200000000, .play, .play, .play,
    .packet (audioPacket 4 20 0x16 0), .payload, .send .stop, .command 0]

/-- The recorded run of these events. -/
def stoppedTrace : Traced Unit Unit × List FrameEntry :=
  @Traced.run Unit Unit pairCodec noResampler nativeOutput tagCipher [] stoppedEvents

theorem frames_conserved_stopped :
    (stoppedTrace.1.engine.playout.stopped = true ∧
      (used stoppedTrace.2).map Ticket.id = [1] ∧
      (List.range 4).map (fun id => reasons id stoppedTrace.2) =
        [[.replaced], [.taken 4411], [.flushed 9 9], [.stopped]]) ∧
    FramesConserved (pairRun stoppedEvents).1 (pairRun stoppedEvents).2 stoppedTrace.1.custody
      stoppedTrace.2 ∧
    ∀ later ticket targetRtp, .left ticket (.taken targetRtp) ∉
      (Machine.run (@Traced.step Unit Unit pairCodec noResampler nativeOutput tagCipher [])
        stoppedTrace.1 later).2 := by
  have all := @frames_conserved Unit Unit pairCodec noResampler nativeOutput tagCipher []
    stoppedEvents
  refine ⟨⟨by decide +kernel, by decide +kernel, by decide +kernel⟩, all.2.1, ?_⟩
  exact all.2.2 (by decide +kernel)

end Shairplay.Raop.BufferedAudio
