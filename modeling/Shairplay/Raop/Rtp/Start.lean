import Shairplay.Raop.AudioPipeline
import Shairplay.Raop.Rtp.Schedule

/-!
# The rate that a session is told

A session is told the output rate if one is configured, and the rate of the stream otherwise.
It gets samples at the output rate only if there is a resampler: the `resample` feature has to
be compiled in, and the resampler has to accept the two rates.
-/

namespace Shairplay.Raop

open Lib Machine Polling
open Shairplay.Codec (StreamResample passThrough)

variable {δ ρ : Type} [StreamResample ρ]

/-- A resampler for an output rate other than that of the stream. -/
def makeResampler (outputSampleRate : Option Nat) (srcSampleRate channels : Nat) : Option ρ :=
  match outputSampleRate with
  | some target =>
    if target ≠ srcSampleRate then StreamResample.new srcSampleRate target channels else none
  | none => none

/-- What `start` is given: whether the `resample` feature is compiled in, the configured output
rate and the buffer of the stream. -/
structure RtpStart (δ : Type) where
  resample : Bool
  outputSampleRate : Option Nat
  buffer : RaopBuffer δ

namespace RtpStart

def sourceRate (s : RtpStart δ) : Nat := s.buffer.format.sampleRate.toNat

def channels (s : RtpStart δ) : Nat := s.buffer.format.numChannels.toNat

def audioFormat (s : RtpStart δ) : AudioFormat where
  channels := s.channels
  sampleRate := s.outputSampleRate.getD s.sourceRate

/-- Without the feature there is no resampler. -/
def resampler (s : RtpStart δ) : Option ρ :=
  if s.resample then makeResampler s.outputSampleRate s.sourceRate s.channels else none

/-- The format for the session, and the task that plays to it. -/
def startUdp (s : RtpStart δ) (controlRport : Nat) (remoteSocket : SocketAddr) :
    AudioFormat × UdpTask δ ρ :=
  (s.audioFormat, .start s.buffer s.resampler controlRport remoteSocket)

def startTcp (s : RtpStart δ) : AudioFormat × TcpTask δ ρ :=
  (s.audioFormat, .start s.buffer s.resampler)

/-- The rate of the samples that a task passes to its session. -/
def deliveredRate (s : RtpStart δ) (resampler : Option ρ) : Nat :=
  if resampler.isSome then s.outputSampleRate.getD s.sourceRate else s.sourceRate

/-- No other rate than that of the stream is configured, or a resampler is made for it. -/
def RateServed (ρ : Type) [StreamResample ρ] (s : RtpStart δ) : Prop :=
  s.outputSampleRate.getD s.sourceRate = s.sourceRate ∨
    s.resample = true ∧
      (StreamResample.new s.sourceRate (s.outputSampleRate.getD s.sourceRate) s.channels :
        Option ρ).isSome = true

/-- With the stream's own rate it does not matter whether there is a resampler; with another
rate it is what decides. -/
theorem announced_iff (s : RtpStart δ) {resampler : Option ρ}
    (kept : resampler.isSome = (s.resampler : Option ρ).isSome) :
    s.audioFormat.sampleRate = s.deliveredRate resampler ↔ RateServed ρ s := by
  simp only [audioFormat, deliveredRate, RateServed, kept]
  by_cases same : s.outputSampleRate.getD s.sourceRate = s.sourceRate
  · simp only [same, ite_self, true_or]
  · obtain ⟨target, configured⟩ : ∃ target, s.outputSampleRate = some target := by
      cases rate : s.outputSampleRate with
      | none => simp [rate] at same
      | some target => exact ⟨target, rfl⟩
    rw [configured, Option.getD_some] at same ⊢
    rw [RtpStart.resampler, configured, makeResampler, if_pos same]
    cases s.resample with
    | false => simp [same]
    | true =>
      cases (StreamResample.new s.sourceRate target s.channels : Option ρ) with
      | none => simp [same]
      | some rs => simp

end RtpStart

section Runs

variable [AlacDecode δ] (cbc : AesSession → List UInt8 → List UInt8)

theorem UdpTask.resampler_run (t : UdpTask δ ρ) (inputs : List (Input Int UdpEvent)) :
    (run (UdpTask.polling cbc).step ⟨t, false⟩ inputs).1.task.player.resampler.isSome =
      t.player.resampler.isSome := by
  apply run_keeps (P := fun l : Loop (UdpTask δ ρ) =>
    l.task.player.resampler.isSome = t.player.resampler.isSome) _ rfl
  intro l i kept
  apply Task.step_keeps (P := fun u : UdpTask δ ρ =>
    u.player.resampler.isSome = t.player.resampler.isSome) (UdpTask.polling cbc) kept
  · intro u nextSeq kept
    exact kept
  · intro u kept
    show (u.drainFlush).1.player.resampler.isSome = _
    unfold UdpTask.drainFlush
    split <;> exact kept
  · intro event _
    show (l.task.handle cbc event).1.player.resampler.isSome = _
    cases event with
    | data datagram sender =>
      rw [UdpTask.handle]
      cases l.task.dataPacket datagram sender with
      | none => exact kept
      | some packet => exact (Player.playLoop_resampler _ _ _).trans kept
    | control datagram sender =>
      rw [UdpTask.handle]
      cases l.task.retransmitted datagram sender <;> exact kept
    | recvError => exact kept
    | shutdown => exact kept

theorem TcpTask.receive_resampler (t : TcpTask δ ρ) (packet : List UInt8) :
    (t.receive cbc packet).1.player.resampler.isSome = t.player.resampler.isSome :=
  Player.playLoop_resampler _ _ _

theorem TcpTask.deframeLoop_resampler (rounds : Nat) (t : TcpTask δ ρ) :
    (t.deframeLoop cbc rounds).1.player.resampler.isSome = t.player.resampler.isSome := by
  induction rounds generalizing t with
  | zero => rfl
  | succ rounds ih =>
    rw [TcpTask.deframeLoop_succ]
    cases interleaved.next t.packetBuf with
    | more => rfl
    | stop => rfl
    | skip n => exact ih _
    | item packet n => exact (ih _).trans (TcpTask.receive_resampler cbc t packet)

theorem TcpTask.resampler_run (t : TcpTask δ ρ) (inputs : List (Input Int TcpEvent)) :
    (run (TcpTask.polling cbc).step ⟨t, false⟩ inputs).1.task.player.resampler.isSome =
      t.player.resampler.isSome := by
  apply run_keeps (P := fun l : Loop (TcpTask δ ρ) =>
    l.task.player.resampler.isSome = t.player.resampler.isSome) _ rfl
  intro l i kept
  apply Task.step_keeps (P := fun u : TcpTask δ ρ =>
    u.player.resampler.isSome = t.player.resampler.isSome) (TcpTask.polling cbc) kept
  · intro u nextSeq kept
    exact kept
  · intro u kept
    show (u.drainFlush).1.player.resampler.isSome = _
    unfold TcpTask.drainFlush
    split <;> exact kept
  · intro event _
    show (l.task.handle cbc event).1.player.resampler.isSome = _
    cases event with
    | read bytes =>
      rw [TcpTask.handle]
      split
      · exact kept
      · rw [TcpTask.readBytes]
        dsimp only
        split
        · exact kept
        · exact (TcpTask.deframeLoop_resampler cbc _ _).trans kept
    | readError => exact kept
    | shutdown => exact kept

/-- The rate that a session is told is the rate of the samples it gets, at any time and over
either transport, exactly if a rate other than that of the stream is resampled to. -/
theorem announced_rate_iff (s : RtpStart δ) (controlRport : Nat) (remoteSocket : SocketAddr) :
    (∀ inputs, (s.startUdp controlRport remoteSocket : AudioFormat × UdpTask δ ρ).1.sampleRate =
        s.deliveredRate (run (UdpTask.polling cbc).step
          ⟨(s.startUdp controlRport remoteSocket : AudioFormat × UdpTask δ ρ).2, false⟩
          inputs).1.task.player.resampler ↔ s.RateServed ρ) ∧
    ∀ inputs, (s.startTcp : AudioFormat × TcpTask δ ρ).1.sampleRate =
        s.deliveredRate (run (TcpTask.polling cbc).step
          ⟨(s.startTcp : AudioFormat × TcpTask δ ρ).2, false⟩
          inputs).1.task.player.resampler ↔ s.RateServed ρ := by
  constructor
  · intro inputs
    exact s.announced_iff (UdpTask.resampler_run cbc _ inputs)
  · intro inputs
    exact s.announced_iff (TcpTask.resampler_run cbc _ inputs)

end Runs

/-- An output rate of 48 kHz in a build without the `resample` feature. -/
def unresampledStart : RtpStart Unit := ⟨false, some 48000, RaopBuffer.unusedStereo⟩

theorem announced_rate_without_feature :
    let started : AudioFormat × TcpTask Unit Unit :=
      @RtpStart.startTcp Unit Unit passThrough unresampledStart
    started.1.sampleRate = 48000 ∧
      unresampledStart.deliveredRate started.2.player.resampler = 44100 ∧
      ((@TcpTask.step Unit Unit RaopBuffer.silentAlac passThrough fun _ block => block)
        started.2 (.iteration (.read ([0x24, 0, 0, 16] ++ RaopBuffer.stereoPacket 0 7)))).2 =
          [.audioProcess [1 / 2, -1 / 2]] := by
  decide +kernel

end Shairplay.Raop
