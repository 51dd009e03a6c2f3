import Shairplay.Raop.BufferedAudio.Steps

/-!
# The format of a session

The receiver announces a new format when it sees the first packet of it, and the delivery
thread opens a new session for it. Frames of the old format that are still in the buffer
then go to the new session. If the buffer holds none of them, every frame goes to a session
of its own format.
-/

namespace Shairplay.Raop.BufferedAudio

open Lib Crypto OrderedMap
open Shairplay.Codec (AacCodec StreamResample)

namespace Engine

variable {κ ρ : Type}

/-- The format that the receive loop brings samples to: it mixes them down to its output
channels and resamples them to the rate it has announced. -/
def outputFormat (e : Engine κ ρ) : AudioFormat where
  channels := e.receiver.outputChannels
  sampleRate := e.playout.sampleRate

section Statements

variable [AacCodec κ] [StreamResample ρ] (config : OutputConfig) (aead : Aead) (key : List UInt8)

/-- A frame that the event stores is in the output format of its stream. -/
def StoresInFormat (e : Engine κ ρ) (event : Event) : Prop :=
  ∀ timestamp packet, .stored timestamp packet ∈ (step config aead key e event).2 →
    ∃ frame, (step config aead key e event).1.playout.buffer[timestamp]? = some frame ∧
      e.outputFormat = config.format frame.ssrc

/-- Every frame that the event plays goes to a session that was told its format. -/
def PlaysInFormat (e : Engine κ ρ) (event : Event) : Prop :=
  ∀ timestamp frame, .audioProcess timestamp frame ∈ (step config aead key e event).2 →
    e.session = some (config.format frame.ssrc)

/-- A packet that names another stream finds no frame of another output format in the
buffer. -/
def ChangesClean (e : Engine κ ρ) : Event → Prop
  | .packet packet =>
    e.reads = true → rtpHeaderLen + nonceTrailLen < packet.length →
      e.receiver.changesFormat packet = true →
        ∀ (ts : BitVec 32) frame, e.playout.buffer[ts]? = some frame →
          config.format frame.ssrc = config.format (ssrcOf packet)
  | _ => True

end Statements

/-- The receiver, the buffer, the session and the current iteration agree about the format. -/
structure Consistent (config : OutputConfig) (e : Engine κ ρ) : Prop where
  receiver : e.receiver.decoder.isSome = true →
    e.receiver.outputChannels = config.targetChannels e.receiver.currentSsrc ∧
      e.playout.format = config.format e.receiver.currentSsrc
  buffer : ∀ (ts : BitVec 32) frame, e.playout.buffer[ts]? = some frame →
    config.format frame.ssrc = e.playout.format
  session : ∀ format, e.session = some format → e.playout.formatChanged = false →
    format = e.playout.format
  delivery : ∀ batch, e.delivery = .playing batch → ∀ entry ∈ batch.ready,
    e.session = some (config.format entry.2.ssrc)

variable {config : OutputConfig} {aead : Aead} {key : List UInt8} {e e' : Engine κ ρ}
  {event : Event} {actions : List Action}

/-- Any packet may come while nothing is buffered. -/
theorem changesClean_of_isEmpty (empty : e.playout.buffer.isEmpty = true) (event : Event) :
    ChangesClean config e event := by
  cases event with
  | packet packet =>
    intro _ _ _ ts frame held
    have absent : ts ∉ e.playout.buffer := Std.TreeMap.isEmpty_iff_forall_not_mem.mp empty ts
    rw [Std.TreeMap.getElem?_eq_none absent] at held
    cases held
  | _ => trivial

theorem consistent_start (config : OutputConfig) :
    Consistent config (start config : Engine κ ρ) where
  receiver := by simp [Engine.start, Receiver.start]
  buffer := by simp [Engine.start, PlayoutState.start]
  session := by simp [Engine.start]
  delivery := fun batch playing => absurd playing (start_delivery_ne config batch)

variable (consistent : Consistent config e)
include consistent

/-- A delivery iteration has a session of the announced format. -/
theorem Consistent.opened :
    e.openSession.1.session = some e.playout.format := by
  rw [openSession_session]
  split
  · rfl
  · rename_i current
    rw [not_or, Option.isNone_iff_eq_none] at current
    obtain ⟨format, is⟩ := Option.ne_none_iff_exists'.mp current.1
    rw [is, consistent.session format is (Bool.eq_false_iff.mpr current.2)]

theorem Consistent.took (nowNs : Nat) :
    Consistent config (e.openSession.1.takeReady nowNs) where
  receiver := by
    have same : (e.openSession.1.takeReady nowNs).playout.format = e.playout.format :=
      openSession_keeps.2.1
    have receiver : (e.openSession.1.takeReady nowNs).receiver = e.receiver :=
      openSession_keeps.2.2.1
    rw [same, receiver]
    exact consistent.receiver
  buffer := by
    intro ts frame left
    rw [consistent.buffer ts frame (getElem?_of_takeReady left)]
    exact openSession_keeps.2.1.symm
  session := by
    intro format is _
    have opened : (e.openSession.1.takeReady nowNs).session = some e.playout.format :=
      consistent.opened
    rw [Option.some.inj (is.symm.trans opened)]
    exact openSession_keeps.2.1.symm
  delivery := by
    intro batch playing entry mem
    rw [takeReady_delivery] at playing
    cases playing
    rw [consistent.buffer entry.1 entry.2 (PlayoutState.getElem?_of_mem_ready mem)]
    exact consistent.opened

variable [AacCodec κ] [StreamResample ρ]

theorem Consistent.changed {packet : List UInt8}
    (clean : ∀ (ts : BitVec 32) frame, e.playout.buffer[ts]? = some frame →
      config.format frame.ssrc = config.format (ssrcOf packet)) :
    Consistent config { (e.changeFormat config (ssrcOf packet)).1 with incoming := some packet } where
  receiver := fun _ => ⟨rfl, rfl⟩
  buffer := clean
  session := fun _ _ unchanged => nomatch unchanged
  delivery := consistent.delivery

theorem Consistent.step (step : Step config aead key e event e' actions)
    (clean : ChangesClean config e event) : Consistent config e' := by
  obtain ⟨receiver, buffer, session, delivery⟩ := consistent
  cases step with
  | idle | sent | read | rejected => exact ⟨receiver, buffer, session, delivery⟩
  | applied nowNs handling queued =>
    obtain ⟨format, changed⟩ := e.playout.applyPlayoutCommand_format nowNs ‹_›
    refine ⟨?_, fun ts frame held => ?_, ?_, delivery⟩
    · dsimp only
      rw [format]
      exact receiver
    · dsimp only
      rw [format]
      exact buffer ts frame (PlayoutState.getElem?_of_applyPlayoutCommand held)
    · dsimp only
      rw [format, changed]
      exact session
  | changed reads long changes =>
    exact Consistent.changed ⟨receiver, buffer, session, delivery⟩ (clean reads long changes)
  | @undecoded packet plaintext incoming decrypted produced =>
    have produces := e.receiver.produces plaintext
    refine ⟨fun held => ?_, buffer, session, delivery⟩
    dsimp only
    rw [produces.outputChannels, produces.currentSsrc]
    exact receiver (produces.decoder ▸ held)
  | @stored packet plaintext new incoming decrypted produced =>
    have produces := e.receiver.produces plaintext
    obtain ⟨ssrc, held⟩ := produces.frame new produced
    refine ⟨fun _ => ?_, fun ts frame there => ?_, session, delivery⟩
    · dsimp only
      rw [produces.outputChannels, produces.currentSsrc]
      exact receiver held
    · rw [Std.TreeMap.getElem?_insert] at there
      split at there
      · rw [← Option.some.inj there, ssrc]
        exact (receiver held).2.symm
      · exact buffer ts frame there
  | closed reads =>
    refine ⟨receiver, fun ts frame held => ?_, session, delivery⟩
    simp only [PlayoutState.close, Std.TreeMap.getElem?_emptyc] at held
    cases held
  | ended | finished =>
    refine ⟨receiver, buffer, session, fun batch same => ?_⟩
    cases same
  | took nowNs locking awake running =>
    exact Consistent.took ⟨receiver, buffer, session, delivery⟩ nowNs
  | @flushed batch playing flush =>
    refine ⟨receiver, buffer, session, fun batch' same => ?_⟩
    cases same
    exact delivery batch playing
  | @played batch timestamp frame rest playing flush ready =>
    refine ⟨receiver, buffer, session, fun batch' same entry mem => ?_⟩
    cases same
    exact delivery batch playing entry (ready ▸ List.mem_cons_of_mem _ mem)

theorem Consistent.storesInFormat (event : Event) : StoresInFormat config aead key e event := by
  intro timestamp packet mem
  obtain ⟨-, frame, there, ssrc, held⟩ := (step_listed event).of_stored mem
  obtain ⟨channels, format⟩ := consistent.receiver held
  refine ⟨frame, there, ?_⟩
  have rate : e.playout.sampleRate = config.targetSampleRate e.receiver.currentSsrc :=
    congrArg AudioFormat.sampleRate format
  rw [outputFormat, channels, rate, ssrc]
  rfl

theorem Consistent.playsInFormat (event : Event) : PlaysInFormat config aead key e event := by
  intro timestamp frame mem
  obtain ⟨batch, rest, playing, ready⟩ := (step_listed event).audioProcess mem
  exact consistent.delivery batch playing (timestamp, frame) (ready ▸ List.mem_cons_self)

omit consistent in
/-- In a run in which formats change only over a buffer without frames of another output
format, every frame is stored in the output format of its stream and goes to a session that
was told this format. -/
theorem format_consistent (config : OutputConfig) (aead : Aead) (key : List UInt8)
    (events : List Event)
    (clean : Machine.Always (step config aead key) (ChangesClean config)
      (start config : Engine κ ρ) events) :
    Machine.Always (step config aead key)
      (fun e event => StoresInFormat config aead key e event ∧ PlaysInFormat config aead key e event)
      (start config : Engine κ ρ) events :=
  Machine.Always.imp_of_keeps (P := Consistent config)
    (fun _ event consistent clean => consistent.step (step_listed event) clean)
    (fun _ event consistent _ =>
      ⟨consistent.storesInFormat event, consistent.playsInFormat event⟩)
    (consistent_start config) clean

end Engine

/-- A stereo frame is buffered and due when the first packet of a 5.1 stream arrives. -/
def lateChange : List Event :=
  [.packet (audioPacket 1 7 0x16 0), .payload, .send (.setRate 0 0 1), .command 0,
    .packet (audioPacket 2 8 0x27 0), .deliver 1000000000]

/-- The stereo frame goes to the session of the 5.1 stream. -/
theorem oldFrame_reaches_newSession :
    (pairRun lateChange).1.session = some { channels := 6, sampleRate := 48000 } ∧
      (pairRun (lateChange ++ [.play])).2.getLast? =
        some (.audioProcess 7 ⟨[1 / 2, -1 / 2], .aac44100F24Stereo⟩) ∧
      nativeOutput.format .aac44100F24Stereo = { channels := 2, sampleRate := 44100 } ∧
      ¬ Machine.Always (@Engine.step Unit Unit pairCodec noResampler nativeOutput tagCipher [])
        (@Engine.PlaysInFormat Unit Unit pairCodec noResampler nativeOutput tagCipher [])
        (Engine.start nativeOutput) (lateChange ++ [.play]) := by
  have told : (pairRun lateChange).1.session = some { channels := 6, sampleRate := 48000 } := by
    decide +kernel
  refine ⟨told, by decide +kernel, rfl, ?_⟩
  intro always
  have agrees : (pairRun lateChange).1.session = some (nativeOutput.format .aac44100F24Stereo) :=
    (Machine.always_append.mp always).2.1 7 ⟨[1 / 2, -1 / 2], .aac44100F24Stereo⟩
      (by decide +kernel)
  exact absurd (told.symm.trans agrees) (by decide)

/-- The stereo frame is played before the first packet of the 5.1 stream arrives. -/
def drainedChange : List Event :=
  [.packet (audioPacket 1 7 0x16 0), .payload, .send (.setRate 0 0 1), .command 0,
    .deliver 1000000000, .play, .play, .packet (audioPacket 2 8 0x27 0), .payload,
    .deliver 2000000000, .play]

theorem format_consistent_drained :
    (pairRun drainedChange).2 =
        [.stored 7 (audioPacket 1 7 0x16 0), .audioInit { channels := 2, sampleRate := 44100 },
          .audioProcess 7 ⟨[1 / 2, -1 / 2], .aac44100F24Stereo⟩,
          .stored 8 (audioPacket 2 8 0x27 0), .audioInit { channels := 6, sampleRate := 48000 },
          .audioProcess 8 ⟨[1 / 2, -1 / 2], .aac48000F24Surround51⟩] ∧
      Machine.Always (@Engine.step Unit Unit pairCodec noResampler nativeOutput tagCipher [])
        (fun e event =>
          @Engine.StoresInFormat Unit Unit pairCodec noResampler nativeOutput tagCipher [] e event ∧
          @Engine.PlaysInFormat Unit Unit pairCodec noResampler nativeOutput tagCipher [] e event)
        (Engine.start nativeOutput) drainedChange :=
  ⟨by decide +kernel,
    @Engine.format_consistent Unit Unit pairCodec noResampler nativeOutput tagCipher []
      drainedChange
      ⟨Engine.changesClean_of_isEmpty (by decide +kernel) _, trivial, trivial, trivial, trivial,
        trivial, trivial, Engine.changesClean_of_isEmpty (by decide +kernel) _, trivial, trivial,
        trivial, trivial⟩⟩

end Shairplay.Raop.BufferedAudio
