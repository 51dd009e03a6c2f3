import Shairplay.Raop.BufferedAudio.Steps

/-!
# Pausing

A delivery thread waits while the rate is zero, but not when a flush is pending. It then goes
on to take the frames that are due, at a time that is computed as if the stream was playing.
So a paused stream is silent as long as no flush meets a frame that is due.
-/

namespace Shairplay.Raop.BufferedAudio

open Lib Crypto OrderedMap
open Shairplay.Codec (AacCodec StreamResample)

namespace Engine

variable {κ ρ : Type} [AacCodec κ] [StreamResample ρ]
  {config : OutputConfig} {aead : Aead} {key : List UInt8} {e e' : Engine κ ρ} {event : Event}
  {actions : List Action}

/-- Every frame that the event plays was taken by an iteration that saw a rate other than
zero. -/
def PlaysUnpaused (config : OutputConfig) (aead : Aead) (key : List UInt8) (e : Engine κ ρ)
    (event : Event) : Prop :=
  ∀ timestamp frame, .audioProcess timestamp frame ∈ (step config aead key e event).2 →
    ∃ batch, e.delivery = .playing batch ∧ batch.rate ≠ 0

/-- No frame is due when the delivery thread finds a flush pending and the rate at zero. -/
def FlushesUndue (e : Engine κ ρ) : Event → Prop
  | .deliver nowNs =>
    e.delivery = .locking → e.playout.stopped = false → e.playout.rate = 0 →
      e.playout.flushPending = true → e.playout.ready nowNs = []
  | _ => True

/-- What an iteration took while the rate was zero is nothing. -/
def RestsPaused (e : Engine κ ρ) : Prop :=
  ∀ batch, e.delivery = .playing batch → batch.rate = 0 → batch.ready = []

theorem RestsPaused.step (rests : RestsPaused e) (step : Step config aead key e event e' actions)
    (undue : FlushesUndue e event) : RestsPaused e' := by
  cases step with
  | idle | sent | applied | read | changed | rejected | undecoded | stored | closed => exact rests
  | ended nowNs locking stopped => exact nofun
  | took nowNs locking awake running =>
    intro batch playing paused
    rw [takeReady_delivery] at playing
    cases playing
    -- the thread is awake although the rate is zero, so it is because of a flush
    obtain flush | playing := PlayoutState.flushPending_or_playing awake running
    · exact undue locking running paused flush
    · exact absurd paused playing
  | @flushed batch playing flush =>
    intro batch' same paused
    cases same
    exact rests batch playing paused
  | @played batch timestamp frame rest playing flush ready =>
    intro batch' same paused
    cases same
    have nothing : batch.ready = [] := rests batch playing paused
    rw [ready] at nothing
    cases nothing
  | finished playing done => exact nofun

theorem playsUnpaused_of_rests (rests : RestsPaused e) (event : Event) :
    PlaysUnpaused config aead key e event := by
  intro timestamp frame mem
  obtain ⟨batch, rest, playing, ready⟩ := (step_listed event).audioProcess mem
  refine ⟨batch, playing, fun paused => ?_⟩
  rw [rests batch playing paused] at ready
  cases ready

/-- An iteration that saw the rate zero still has frames to play. -/
def LoudPause (e : Engine κ ρ) : Prop :=
  e.session.isSome = true ∧
    ∃ batch, e.delivery = .playing batch ∧ batch.rate = 0 ∧ batch.ready ≠ []

/-- A thread that plays has a session. -/
def Opened (e : Engine κ ρ) : Prop :=
  ∀ batch, e.delivery = .playing batch → e.session.isSome = true

theorem Opened.step (opened : Opened e) (step : Step config aead key e event e' actions) :
    Opened e' := by
  cases step with
  | idle | sent | applied | read | changed | rejected | undecoded | stored | closed =>
    exact opened
  | ended | finished => exact nofun
  | took nowNs locking awake running => exact fun _ _ => isSome_takeReady_session
  | flushed playing flush => exact fun _ _ => opened _ playing
  | played playing flush ready => exact fun _ _ => opened _ playing

/-- Nothing but playing takes the frames of an iteration away. -/
theorem LoudPause.step (loud : LoudPause e) (step : Step config aead key e event e' actions)
    (unpaused : ∀ ts frame, .audioProcess ts frame ∈ actions →
      ∃ batch, e.delivery = .playing batch ∧ batch.rate ≠ 0) : LoudPause e' := by
  obtain ⟨opened, batch, playing, paused, more⟩ := loud
  cases step with
  | idle | sent | applied | read | changed | rejected | undecoded | stored | closed =>
    exact ⟨opened, batch, playing, paused, more⟩
  | ended nowNs locking stopped =>
    rw [playing] at locking
    cases locking
  | took nowNs locking awake running =>
    rw [playing] at locking
    cases locking
  | flushed same flush =>
    rw [playing] at same
    cases same
    exact ⟨opened, _, rfl, paused, more⟩
  | played same flush ready =>
    obtain ⟨batch', same', unpaused⟩ := unpaused _ _ (List.mem_singleton_self _)
    rw [playing] at same'
    cases same'
    exact absurd paused unpaused
  | finished same done =>
    rw [playing] at same
    cases same
    obtain none | none := done
    · rw [none] at opened
      cases opened
    · exact absurd none more

/-- The delivery thread gets to such a frame in two calls. -/
theorem LoudPause.plays (loud : LoudPause e) :
    ¬ Machine.Always (Engine.step config aead key) (PlaysUnpaused config aead key) e
      [.play, .play] := by
  obtain ⟨opened, batch, playing, paused, more⟩ := loud
  obtain ⟨format, session⟩ := Option.isSome_iff_exists.mp opened
  obtain ⟨⟨timestamp, frame⟩, rest, ready⟩ := List.exists_cons_of_ne_nil more
  intro always
  cases flush : batch.flush with
  | false =>
    have plays : e.play.2 = [.audioProcess timestamp frame] := by
      simp [Engine.play, playing, session, flush, ready]
    obtain ⟨batch', same, unpaused⟩ := always.1 timestamp frame
      (by rw [Engine.step, plays]; exact List.mem_singleton_self _)
    rw [playing] at same
    cases same
    exact unpaused paused
  | true =>
    have flushes : e.play.1 = { e with delivery := .playing { batch with flush := false } } := by
      simp [Engine.play, playing, session, flush]
    have plays : e.play.1.play.2 = [.audioProcess timestamp frame] := by
      rw [flushes]
      simp [Engine.play, session, ready]
    obtain ⟨batch', same, unpaused⟩ := always.2.1 timestamp frame
      (by rw [Engine.step, Engine.step, plays]; exact List.mem_singleton_self _)
    rw [Engine.step, flushes] at same
    cases same
    exact unpaused paused

theorem LoudPause.not_always (loud : LoudPause e) (events : List Event) :
    ¬ Machine.Always (Engine.step config aead key) (PlaysUnpaused config aead key) e
      (events ++ [.play, .play]) := by
  induction events generalizing e with
  | nil => exact loud.plays
  | cons event events ih =>
    intro always
    exact ih (loud.step (step_listed event) always.1) always.2

/-- If a pause is never broken, however long the delivery thread goes on, then every flush
found nothing due. -/
theorem flushesUndue_of_always (opened : Opened e) {events : List Event}
    (always : ∀ k, Machine.Always (Engine.step config aead key) (PlaysUnpaused config aead key) e
      (events ++ List.replicate k .play)) :
    Machine.Always (Engine.step config aead key) FlushesUndue e events := by
  induction events generalizing e with
  | nil => trivial
  | cons event events ih =>
    refine ⟨?_, ih (opened.step (step_listed event)) fun k => (always k).2⟩
    cases event with
    | deliver nowNs =>
      intro locking running paused flush
      by_contra due
      have awake : e.playout.waits = false := by simp [PlayoutState.waits, flush]
      have took : (Engine.step config aead key e (.deliver nowNs)).1 =
          e.openSession.1.takeReady nowNs := by
        simp [Engine.step, Engine.deliver, locking, awake, running]
      have loud : LoudPause (Engine.step config aead key e (.deliver nowNs)).1 := by
        rw [took]
        exact ⟨isSome_takeReady_session, _, takeReady_delivery, paused, due⟩
      exact loud.not_always events (always 2).2
    | _ => trivial

/-- A paused stream is silent in every run, however long the delivery thread goes on after it,
just when no flush meets a frame that is due while the rate is zero. -/
theorem pause_silent_iff (config : OutputConfig) (aead : Aead) (key : List UInt8)
    (events : List Event) :
    (∀ k, Machine.Always (step config aead key) (PlaysUnpaused config aead key)
        (start config : Engine κ ρ) (events ++ List.replicate k .play)) ↔
      Machine.Always (step config aead key) FlushesUndue (start config : Engine κ ρ) events := by
  constructor
  · intro always
    have opened : Opened (start config : Engine κ ρ) :=
      fun batch playing => absurd playing (start_delivery_ne config batch)
    exact flushesUndue_of_always opened always
  · intro undue k
    have continued : Machine.Always (step config aead key) FlushesUndue
        (start config : Engine κ ρ) (events ++ List.replicate k .play) :=
      Machine.always_append.mpr ⟨undue, Machine.always_replicate (fun _ => trivial) k _⟩
    have rests : RestsPaused (start config : Engine κ ρ) :=
      fun batch playing => absurd playing (start_delivery_ne config batch)
    exact Machine.Always.imp_of_keeps (P := RestsPaused)
      (fun e event rests undue => rests.step (step_listed event) undue)
      (fun e event rests _ => playsUnpaused_of_rests rests event) rests continued

end Engine

/-- A frame is stored and played from, the stream is paused, and a flush of nothing follows. -/
def pausedFlush : List Event :=
  [.packet (audioPacket 1 7 0x16 0), .payload, .send (.setRate 0 0 1), .command 0,
    .send (.setRate 7 0 0), .command 0, .send (.flush 1 1), .command 0, .deliver 1, .play]

/-- The flush makes the paused stream play the frame. -/
theorem flush_plays_while_paused :
    (pairRun pausedFlush).1.delivery.observedRate = some 0 ∧
      (pairRun (pausedFlush ++ [.play])).2.getLast? =
        some (.audioProcess 7 ⟨[1 / 2, -1 / 2], .aac44100F24Stereo⟩) ∧
      ¬ Machine.Always (@Engine.step Unit Unit pairCodec noResampler nativeOutput tagCipher [])
        (@Engine.PlaysUnpaused Unit Unit pairCodec noResampler nativeOutput tagCipher [])
        (Engine.start nativeOutput) (pausedFlush ++ [.play]) := by
  have paused : (pairRun pausedFlush).1.delivery.observedRate = some 0 := by decide +kernel
  refine ⟨paused, by decide +kernel, ?_⟩
  intro always
  obtain ⟨batch, playing, unpaused⟩ := (Machine.always_append.mp always).2.1 7
    ⟨[1 / 2, -1 / 2], .aac44100F24Stereo⟩ (by decide +kernel)
  have seen : (pairRun pausedFlush).1.delivery.observedRate = some batch.rate :=
    congrArg Delivery.observedRate playing
  exact unpaused (Option.some.inj (seen.symm.trans paused))

end Shairplay.Raop.BufferedAudio
