import Shairplay.Raop.BufferedAudio

/-!
# What a step may do

The steps of an engine are listed once, each with the condition under which it happens and
with what it leaves behind. Frames enter the buffer in one way only: the receiver stores what
it decoded from a packet, under the format of the current SSRC. Everything else takes frames
out. The format fields belong to the receiver.
-/

namespace Shairplay.Raop.BufferedAudio

open Lib Crypto OrderedMap
open Shairplay.Codec (AacCodec StreamResample)

namespace PlayoutState

variable {s : PlayoutState} {ts : BitVec 32} {frame : BufferedFrame} {nowNs : Nat}

/-- A command takes frames out. -/
theorem getElem?_of_applyPlayoutCommand {command : PlayoutCommand}
    (left : (s.applyPlayoutCommand nowNs command).1.buffer[ts]? = some frame) :
    s.buffer[ts]? = some frame := by
  cases command with
  | setRate anchorRtp anchorTimeNs rate =>
    by_cases paused : rate = 0
    · simpa only [applyPlayoutCommand, if_pos paused] using left
    · simp only [applyPlayoutCommand, if_neg paused] at left
      exact getElem?_of_eraseAll left
  | flush fromSeq untilSeq => exact getElem?_of_eraseAll left
  | stop =>
    simp only [applyPlayoutCommand, Std.TreeMap.getElem?_emptyc] at left
    cases left

theorem applyPlayoutCommand_format (s : PlayoutState) (nowNs : Nat) (command : PlayoutCommand) :
    (s.applyPlayoutCommand nowNs command).1.format = s.format ∧
      (s.applyPlayoutCommand nowNs command).1.formatChanged = s.formatChanged := by
  cases command with
  | setRate anchorRtp anchorTimeNs rate =>
    rw [applyPlayoutCommand]
    split <;> exact ⟨rfl, rfl⟩
  | flush fromSeq untilSeq => exact ⟨rfl, rfl⟩
  | stop => exact ⟨rfl, rfl⟩

theorem getElem?_of_mem_ready (mem : (ts, frame) ∈ s.ready nowNs) : s.buffer[ts]? = some frame :=
  Std.TreeMap.mem_toList_iff_getElem?_eq_some.mp (List.mem_of_mem_filter mem)

/-- A thread that does not wait and was not stopped has a flush to do, or plays. -/
theorem flushPending_or_playing (awake : s.waits = false) (running : s.stopped = false) :
    s.flushPending = true ∨ s.rate ≠ 0 := by
  by_contra neither
  rw [not_or, not_not] at neither
  simp [waits, running, neither] at awake

end PlayoutState

namespace Receiver

variable {κ ρ : Type} [AacCodec κ] [StreamResample ρ]

/-- What decoding a packet leaves, and the frame it may produce. -/
structure Produces (r : Receiver κ ρ) (outcome : Receiver κ ρ × Option BufferedFrame) : Prop where
  currentSsrc : outcome.1.currentSsrc = r.currentSsrc
  outputChannels : outcome.1.outputChannels = r.outputChannels
  decoder : outcome.1.decoder.isSome = r.decoder.isSome
  frame : ∀ frame, outcome.2 = some frame → frame.ssrc = r.currentSsrc ∧ r.decoder.isSome = true

/-- Decoding keeps the format, and needs a decoder. -/
theorem produces (r : Receiver κ ρ) (plaintext : List UInt8) :
    Produces r (r.produce plaintext) := by
  cases decoder : r.decoder with
  | none =>
    have nothing : r.produce plaintext = (r, none) := by simp only [produce, decoder]
    rw [nothing]
    exact ⟨rfl, rfl, rfl, fun frame made => nomatch made⟩
  | some dec =>
    rcases decoded : dec.decode r.currentSsrc plaintext with ⟨dec', samples⟩
    have held : r.decoder.isSome = true := by rw [decoder]; rfl
    cases samples with
    | none =>
      simp only [produce, decoder, decoded]
      exact ⟨rfl, rfl, held.symm, fun frame made => nomatch made⟩
    | some samples =>
      simp only [produce, decoder, decoded]
      refine ⟨rfl, rfl, held.symm, fun frame made => ?_⟩
      cases made
      exact ⟨rfl, held⟩

end Receiver

namespace Engine

section Sessions

variable {κ ρ : Type} {e : Engine κ ρ} {nowNs : Nat}

theorem start_delivery_ne (config : OutputConfig) (batch : Batch) :
    (start config : Engine κ ρ).delivery ≠ .playing batch := by
  simp [Engine.start]

theorem openSession_actions :
    ∀ action ∈ e.openSession.2, ∃ format, action = .audioInit format := by
  intro action mem
  simp only [Engine.openSession] at mem
  split at mem
  · exact ⟨_, List.mem_singleton.mp mem⟩
  · cases mem

/-- Opening a session leaves everything but the session and the flag for new formats. -/
theorem openSession_keeps :
    e.openSession.1.playout.buffer = e.playout.buffer ∧
      e.openSession.1.playout.format = e.playout.format ∧
      e.openSession.1.receiver = e.receiver ∧
      e.openSession.1.playout.formatChanged = false := by
  unfold Engine.openSession
  split
  · exact ⟨rfl, rfl, rfl, rfl⟩
  · rename_i current
    rw [not_or] at current
    exact ⟨rfl, rfl, rfl, Bool.eq_false_iff.mpr current.2⟩

/-- The buffer without the frames that are due. -/
theorem takeReady_buffer :
    (e.openSession.1.takeReady nowNs).playout.buffer =
      eraseAll e.playout.buffer ((e.playout.ready nowNs).map Prod.fst) := by
  unfold Engine.openSession
  split <;> rfl

theorem getElem?_of_takeReady {ts : BitVec 32} {frame : BufferedFrame}
    (left : (e.openSession.1.takeReady nowNs).playout.buffer[ts]? = some frame) :
    e.playout.buffer[ts]? = some frame := by
  rw [takeReady_buffer] at left
  exact getElem?_of_eraseAll left

theorem openSession_session :
    e.openSession.1.session =
      if e.session.isNone ∨ e.playout.formatChanged then some e.playout.format else e.session := by
  unfold Engine.openSession
  split <;> rfl

theorem isSome_takeReady_session :
    (e.openSession.1.takeReady nowNs).session.isSome = true := by
  have taken : (e.openSession.1.takeReady nowNs).session = e.openSession.1.session := rfl
  rw [taken, openSession_session]
  split
  · rfl
  · rename_i current
    rw [not_or, Option.isNone_iff_eq_none] at current
    exact Option.isSome_iff_ne_none.mpr current.1

theorem takeReady_delivery :
    (e.openSession.1.takeReady nowNs).delivery =
      .playing { rate := e.playout.rate, flush := e.playout.flushPending,
                 ready := e.playout.ready nowNs } := by
  unfold Engine.openSession
  split <;> rfl

end Sessions

variable {κ ρ : Type} [AacCodec κ] [StreamResample ρ]

/-- The steps of an engine. -/
inductive Step (config : OutputConfig) (aead : Aead) (key : List UInt8) (e : Engine κ ρ) :
    Event → Engine κ ρ → List Action → Prop
  /-- A thread that has nothing to do now, or waits. -/
  | idle (event : Event) : Step config aead key e event e []
  | sent (command : PlayoutCommand) :
      Step config aead key e (.send command) { e with commands := e.commands ++ [command] } []
  | applied (nowNs : Nat) {command : PlayoutCommand} {rest : List PlayoutCommand} :
      e.handling = true → e.commands = command :: rest →
      Step config aead key e (.command nowNs)
        { e with
          playout := (e.playout.applyPlayoutCommand nowNs command).1
          commands := rest
          handling := (e.playout.applyPlayoutCommand nowNs command).2 } []
  | read {packet : List UInt8} :
      e.reads = true → rtpHeaderLen + nonceTrailLen < packet.length →
      e.receiver.changesFormat packet = false →
      Step config aead key e (.packet packet) { e with incoming := some packet } []
  | changed {packet : List UInt8} :
      e.reads = true → rtpHeaderLen + nonceTrailLen < packet.length →
      e.receiver.changesFormat packet = true →
      Step config aead key e (.packet packet)
        { (e.changeFormat config (ssrcOf packet)).1 with incoming := some packet }
        (e.changeFormat config (ssrcOf packet)).2
  | rejected {packet : List UInt8} :
      e.incoming = some packet → decryptRtpChacha aead key packet = none →
      Step config aead key e .payload { e with incoming := none } []
  | undecoded {packet plaintext : List UInt8} :
      e.incoming = some packet → decryptRtpChacha aead key packet = some plaintext →
      (e.receiver.produce plaintext).2 = none →
      Step config aead key e .payload
        { e with incoming := none, receiver := (e.receiver.produce plaintext).1 } []
  | stored {packet plaintext : List UInt8} {frame : BufferedFrame} :
      e.incoming = some packet → decryptRtpChacha aead key packet = some plaintext →
      (e.receiver.produce plaintext).2 = some frame →
      Step config aead key e .payload
        { e with
          incoming := none
          receiver := (e.receiver.produce plaintext).1
          playout := { e.playout with
            buffer := e.playout.buffer.insert (timestampOf packet) frame } }
        [.stored (timestampOf packet) packet]
  | closed : e.reads = true → Step config aead key e .closed
        { e with receiving := false, playout := e.playout.close } []
  | ended (nowNs : Nat) :
      e.delivery = .locking → e.playout.stopped = true →
      Step config aead key e (.deliver nowNs) { e with delivery := .ended } []
  | took (nowNs : Nat) :
      e.delivery = .locking → e.playout.waits = false → e.playout.stopped = false →
      Step config aead key e (.deliver nowNs) (e.openSession.1.takeReady nowNs) e.openSession.2
  | flushed {batch : Batch} :
      e.delivery = .playing batch → batch.flush = true →
      Step config aead key e .play
        { e with delivery := .playing { batch with flush := false } } [.audioFlush]
  | played {batch : Batch} {timestamp : BitVec 32} {frame : BufferedFrame}
      {rest : List (BitVec 32 × BufferedFrame)} :
      e.delivery = .playing batch → batch.flush = false →
      batch.ready = (timestamp, frame) :: rest →
      Step config aead key e .play
        { e with delivery := .playing { batch with ready := rest } }
        [.audioProcess timestamp frame]
  | finished {batch : Batch} :
      e.delivery = .playing batch → e.session = none ∨ batch.ready = [] →
      Step config aead key e .play { e with delivery := .locking } []

variable {config : OutputConfig} {aead : Aead} {key : List UInt8} {e : Engine κ ρ}

theorem step_command (nowNs : Nat) :
    Step config aead key e (.command nowNs) (e.command nowNs) [] := by
  unfold Engine.command
  split
  · exact .applied nowNs ‹_› ‹_›
  · exact .idle _

theorem step_packet (packet : List UInt8) :
    Step config aead key e (.packet packet) (e.packet config packet).1
      (e.packet config packet).2 := by
  unfold Engine.packet
  split
  · exact .idle _
  · rename_i reads
    have reads : e.reads = true := by simpa using reads
    split
    · exact .idle _
    · split
      · exact .changed reads (Nat.lt_of_not_le ‹_›) ‹_›
      · exact .read reads (Nat.lt_of_not_le ‹_›) (Bool.eq_false_iff.mpr ‹_›)

theorem step_payload :
    Step config aead key e .payload (e.payload aead key).1 (e.payload aead key).2 := by
  unfold Engine.payload
  split
  · exact .idle _
  · rename_i packet incoming
    dsimp only
    split
    · exact .rejected incoming ‹_›
    · rename_i plaintext decrypted
      split
      · rename_i receiver produced
        have step : Step config aead key e .payload _ _ :=
          .undecoded incoming decrypted (congrArg Prod.snd produced)
        rwa [produced] at step
      · rename_i receiver frame produced
        have step : Step config aead key e .payload _ _ :=
          .stored incoming decrypted (congrArg Prod.snd produced)
        rwa [produced] at step

theorem step_closed : Step config aead key e .closed e.closed [] := by
  unfold Engine.closed
  split
  · exact .closed ‹_›
  · exact .idle _

theorem step_deliver (nowNs : Nat) :
    Step config aead key e (.deliver nowNs) (e.deliver nowNs).1 (e.deliver nowNs).2 := by
  unfold Engine.deliver
  split
  · rename_i locking
    split
    · exact .idle _
    · rename_i awake
      split
      · exact .ended nowNs locking ‹_›
      · exact .took nowNs locking (Bool.eq_false_iff.mpr awake) (Bool.eq_false_iff.mpr ‹_›)
  · exact .idle _

theorem step_play : Step config aead key e .play e.play.1 e.play.2 := by
  unfold Engine.play
  split
  · rename_i batch _ playing _
    split
    · exact .flushed playing ‹_›
    · rename_i flush
      split
      · exact .finished playing (.inr ‹_›)
      · exact .played playing (Bool.eq_false_iff.mpr flush) ‹_›
  · exact .finished ‹_› (.inl ‹_›)
  · exact .idle _

theorem step_listed (event : Event) :
    Step config aead key e event (step config aead key e event).1
      (step config aead key e event).2 := by
  cases event with
  | send command => exact .sent command
  | command nowNs => exact step_command nowNs
  | packet packet => exact step_packet packet
  | payload => exact step_payload
  | closed => exact step_closed
  | deliver nowNs => exact step_deliver nowNs
  | play => exact step_play

/-- A new format may be reported as an error. -/
theorem changeFormat_actions {ssrc : Shairplay.Codec.AudioSsrc} :
    ∀ action ∈ (e.changeFormat config ssrc).2, ∃ error, action = .onError error := by
  intro action mem
  simp only [Engine.changeFormat] at mem
  split at mem
  · exact ⟨_, List.mem_singleton.mp mem⟩
  · cases mem

variable {event : Event} {e' : Engine κ ρ} {actions : List Action}

/-- A frame in the buffer was there before or has just been stored. -/
theorem Step.held (step : Step config aead key e event e' actions) {ts : BitVec 32}
    {frame : BufferedFrame} (held : e'.playout.buffer[ts]? = some frame) :
    e.playout.buffer[ts]? = some frame ∨
      (∃ packet, actions = [.stored ts packet]) ∧ frame.ssrc = e.receiver.currentSsrc ∧
        e.receiver.decoder.isSome = true := by
  cases step with
  | idle | sent | read | changed | rejected | undecoded | ended | flushed | played | finished =>
    exact .inl held
  | applied nowNs handling queued =>
    exact .inl (PlayoutState.getElem?_of_applyPlayoutCommand held)
  | @stored packet plaintext new incoming decrypted produced =>
    rw [Std.TreeMap.getElem?_insert] at held
    split at held
    · rename_i same
      rw [Std.LawfulEqOrd.eq_of_compare same, ← Option.some.inj held]
      exact .inr ⟨⟨packet, rfl⟩, (e.receiver.produces plaintext).frame new produced⟩
    · exact .inl held
  | closed reads =>
    simp only [PlayoutState.close, Std.TreeMap.getElem?_emptyc] at held
    cases held
  | took nowNs locking awake running => exact .inl (getElem?_of_takeReady held)

/-- A frame is stored by the second half of an iteration of the receive loop, which has decoded
it from the packet that was read. -/
theorem Step.stores (step : Step config aead key e event e' actions) {ts : BitVec 32}
    {packet : List UInt8} (mem : Action.stored ts packet ∈ actions) :
    event = .payload ∧ timestampOf packet = ts ∧ e.incoming = some packet ∧
      ∃ plaintext frame, decryptRtpChacha aead key packet = some plaintext ∧
        (e.receiver.produce plaintext).2 = some frame ∧
        e'.playout.buffer = e.playout.buffer.insert ts frame := by
  cases step with
  | idle | sent | applied | read | rejected | undecoded | closed | ended | finished => cases mem
  | changed reads long changes =>
    obtain ⟨error, is⟩ := changeFormat_actions _ mem
    cases is
  | @stored packet plaintext frame incoming decrypted produced =>
    cases List.mem_singleton.mp mem
    exact ⟨rfl, rfl, incoming, plaintext, frame, decrypted, produced, rfl⟩
  | took nowNs locking awake running =>
    obtain ⟨format, is⟩ := openSession_actions _ mem
    cases is
  | flushed playing flush => cases List.mem_singleton.mp mem
  | played playing flush ready => cases List.mem_singleton.mp mem

/-- A stored frame is decoded from a packet of the current format, with its timestamp. -/
theorem Step.of_stored (step : Step config aead key e event e' actions) {ts : BitVec 32}
    {packet : List UInt8} (mem : Action.stored ts packet ∈ actions) :
    timestampOf packet = ts ∧ ∃ frame, e'.playout.buffer[ts]? = some frame ∧
      frame.ssrc = e.receiver.currentSsrc ∧ e.receiver.decoder.isSome = true := by
  obtain ⟨-, stamped, -, plaintext, frame, -, produced, buffer⟩ := step.stores mem
  refine ⟨stamped, frame, ?_, (e.receiver.produces plaintext).frame frame produced⟩
  rw [buffer]
  exact Std.TreeMap.getElem?_insert_self

/-- Frames are played by the delivery thread. -/
theorem Step.audioProcess (step : Step config aead key e event e' actions) {ts : BitVec 32}
    {frame : BufferedFrame} (mem : Action.audioProcess ts frame ∈ actions) :
    ∃ batch rest, e.delivery = .playing batch ∧ batch.ready = (ts, frame) :: rest := by
  cases step with
  | idle | sent | applied | read | rejected | undecoded | closed | ended | finished => cases mem
  | changed reads long changes =>
    obtain ⟨error, is⟩ := changeFormat_actions _ mem
    cases is
  | stored incoming decrypted produced => cases List.mem_singleton.mp mem
  | took nowNs locking awake running =>
    obtain ⟨format, is⟩ := openSession_actions _ mem
    cases is
  | flushed playing flush => cases List.mem_singleton.mp mem
  | played playing flush ready =>
    cases List.mem_singleton.mp mem
    exact ⟨_, _, playing, ready⟩

end Engine

/-- A codec that decodes every frame to the same pair of samples. -/
@[reducible] def pairCodec : AacCodec Unit where
  makeAudioDecoder _ _ := .ok ()
  decodeRef _ _ := ((), .ok [1 / 2, -1 / 2])

@[reducible] def noResampler : StreamResample Unit where
  new _ _ _ := none
  process _ samples := ((), samples)

/-- A cipher that takes the tag off and rejects packets of other streams. -/
def tagCipher : Aead where
  encrypt _ _ _ message := some (message ++ List.replicate 16 0)
  decrypt _ _ _ message :=
    if message.drop 8 = List.replicate 16 0 then some (message.take 8) else none

/-- A packet with a sequence number and a timestamp, of the format that the first byte of the
SSRC tells, and with the given tag. -/
def audioPacket (sequence timestamp ssrc tag : UInt8) : List UInt8 :=
  [0x80, 0, 0, sequence, 0, 0, 0, timestamp, ssrc, 0, 0, 0] ++ List.replicate 8 0 ++
    List.replicate 16 tag ++ List.replicate 8 0

def nativeOutput : OutputConfig := ⟨none, none⟩

def pairRun (events : List Event) : Engine Unit Unit × List Action :=
  @Engine.run Unit Unit pairCodec noResampler nativeOutput tagCipher [] events

end Shairplay.Raop.BufferedAudio
