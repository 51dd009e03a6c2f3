import Shairplay.Raop.BufferedAudio.Steps

/-!
# After a stop

A stop empties the buffer and ends the command handler, and the delivery thread ends when it
next looks. The receive loop does not look: it goes on to decode and store what the sender
transmits, and nobody is left who would take it out again.
-/

namespace Shairplay.Raop.BufferedAudio

open Lib Crypto
open Shairplay.Codec (AacCodec StreamResample)

namespace Engine

variable {κ ρ : Type} [AacCodec κ] [StreamResample ρ] (config : OutputConfig) (aead : Aead)
  (key : List UInt8)

def LeavesEmpty (e : Engine κ ρ) (event : Event) : Prop :=
  (step config aead key e event).1.playout.buffer.isEmpty = true

instance (e : Engine κ ρ) (event : Event) : Decidable (LeavesEmpty config aead key e event) :=
  inferInstanceAs (Decidable (_ = true))

/-- If a packet is to be decoded, it cannot be decrypted or does not decode to a frame. -/
def Fruitless (e : Engine κ ρ) (event : Event) : Prop :=
  event = .payload → ∀ packet plaintext, e.incoming = some packet →
    decryptRtpChacha aead key packet = some plaintext → (e.receiver.produce plaintext).2 = none

variable {config aead key} {e : Engine κ ρ} {event : Event}

/-- A packet that decodes to a frame is stored. -/
theorem fruitless_of_leavesEmpty (empties : LeavesEmpty config aead key e event) :
    Fruitless aead key e event := by
  rintro rfl packet plaintext incoming decrypted
  by_contra decodes
  obtain ⟨frame, produced⟩ := Option.ne_none_iff_exists'.mp decodes
  rcases outcome : e.receiver.produce plaintext with ⟨receiver, made⟩
  rw [outcome] at produced
  dsimp only at produced
  rw [LeavesEmpty, step, payload, incoming] at empties
  simp only [decrypted, outcome, produced, Std.TreeMap.isEmpty_insert] at empties
  cases empties

/-- Nothing else fills the buffer. -/
theorem leavesEmpty_of_fruitless (empty : e.playout.buffer.isEmpty = true)
    (fruitless : Fruitless aead key e event) : LeavesEmpty config aead key e event := by
  have listed := @step_listed κ ρ _ _ config aead key e event
  apply Std.TreeMap.isEmpty_iff_forall_not_mem.mpr
  intro ts there
  obtain ⟨frame, held⟩ := Option.isSome_iff_exists.mp (Std.TreeMap.mem_iff_isSome_getElem?.mp there)
  obtain before | ⟨⟨packet, stored⟩, -⟩ := listed.held held
  · have present : ts ∈ e.playout.buffer :=
      Std.TreeMap.mem_iff_isSome_getElem?.mpr (by rw [before]; rfl)
    exact Std.TreeMap.not_mem_of_isEmpty empty present
  · have mem : Action.stored ts packet ∈ (step config aead key e event).2 := by
      rw [stored]
      exact List.mem_singleton_self _
    obtain ⟨payload, -, incoming, plaintext, frame, decrypted, produced, -⟩ := listed.stores mem
    cases produced.symm.trans (fruitless payload packet plaintext incoming decrypted)

/-- From the stop on, the buffer is empty after every event just if no packet decodes to a
frame. This is so after every run of the stream, and for everything that happens later. -/
theorem stop_retains_nothing_iff (config : OutputConfig) (aead : Aead) (key : List UInt8)
    (events : List Event) (nowNs : Nat) (rest : List PlayoutCommand) (later : List Event)
    (handling : (run config aead key events : Engine κ ρ × List Action).1.handling = true)
    (stop : (run config aead key events : Engine κ ρ × List Action).1.commands = .stop :: rest) :
    let stopped : Engine κ ρ :=
      (step config aead key (run config aead key events).1 (.command nowNs)).1
    stopped.playout.buffer.isEmpty = true ∧
      Machine.Always (step config aead key) (LeavesEmpty config aead key) stopped later ↔
    Machine.Always (step config aead key) (Fruitless aead key) stopped later := by
  intro stopped
  have empty : stopped.playout.buffer.isEmpty = true := by
    have applied : stopped = command (run config aead key events).1 nowNs := rfl
    rw [applied, command, handling, stop]
    exact Std.TreeMap.isEmpty_emptyc
  constructor
  · rintro ⟨_, empties⟩
    refine empties.imp_of_keeps (P := fun e => e.playout.buffer.isEmpty = true) ?_ ?_ empty
    · intro e event _ empties
      exact empties
    · intro e event _ empties
      exact fruitless_of_leavesEmpty empties
  · intro fruitless
    refine ⟨empty, fruitless.imp_of_keeps (P := fun e => e.playout.buffer.isEmpty = true) ?_ ?_
      empty⟩
    · intro e event empty fruitless
      exact leavesEmpty_of_fruitless empty fruitless
    · intro e event empty fruitless
      exact leavesEmpty_of_fruitless empty fruitless

end Engine

/-- Two packets are sent to a stream that has been stopped. -/
def afterStop : List Event :=
  [.packet (audioPacket 1 1 0x16 0), .payload, .packet (audioPacket 2 2 0x16 0), .payload]

/-- Their frames are kept, although the delivery thread has seen the stop before. -/
theorem stop_retains_later_packets :
    let stopped := (pairRun [.send .stop, .command 0]).1
    (stopped.playout.stopped = true ∧ stopped.playout.buffer.keys = []) ∧
      (pairRun ([.send .stop, .command 0, .deliver 0] ++ afterStop)).1.playout.buffer.keys =
        [1, 2] ∧
      ¬ Machine.Always (@Engine.step Unit Unit pairCodec noResampler nativeOutput tagCipher [])
        (@Engine.LeavesEmpty Unit Unit pairCodec noResampler nativeOutput tagCipher [])
        stopped afterStop := by
  decide +kernel

/-- A packet of another stream cannot be decrypted, and nothing is kept of it. -/
theorem stop_retains_nothing_forged :
    let later : List Event := [.packet (audioPacket 1 1 0x16 1), .payload]
    let stopped := (pairRun [.send .stop, .command 0]).1
    stopped.playout.buffer.isEmpty = true ∧ Machine.Always
        (@Engine.step Unit Unit pairCodec noResampler nativeOutput tagCipher [])
        (@Engine.LeavesEmpty Unit Unit pairCodec noResampler nativeOutput tagCipher [])
        stopped later := by
  apply (@Engine.stop_retains_nothing_iff Unit Unit pairCodec noResampler nativeOutput tagCipher []
    [.send .stop] 0 [] _ (by decide +kernel) (by decide +kernel)).mpr
  refine ⟨?_, ?_, trivial⟩
  · intro payload
    cases payload
  · intro _ packet plaintext incoming decrypted
    cases incoming
    cases decrypted

end Shairplay.Raop.BufferedAudio
