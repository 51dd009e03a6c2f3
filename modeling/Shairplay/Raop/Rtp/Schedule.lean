import Shairplay.Raop.Rtp.Tcp
import Shairplay.Raop.Rtp.Udp

/-!
# Flushes while the task waits

A request handler stores a flush at any time, and a receive task looks for one at the top of
its loop only. A flush that is stored while the task waits for a packet is done after that
packet. It is done before the packet after that one, on every schedule and by both tasks.
-/

namespace Shairplay.Raop

open Lib Machine Polling
open Shairplay.Codec (StreamResample passThrough)

namespace UdpTask

variable {δ ρ : Type} [AlacDecode δ] [StreamResample ρ] (cbc : AesSession → List UInt8 → List UInt8)

/-- A loop at its top does the flush that is pending. -/
theorem step_poll {l : Loop (UdpTask δ ρ)} {nextSeq : Int} (top : l.waiting = false)
    (live : l.task.ended = false) (stored : l.task.flush = nextSeq) (request : nextSeq ≠ noFlush) :
    (polling cbc).step l .poll =
      ({ task :=
          { l.task with
            player := { l.task.player with buffer := l.task.player.buffer.flush nextSeq }
            flush := noFlush }
         waiting := true },
        [.output .audioFlush]) := by
  subst stored
  have ready : ¬(l.waiting || l.task.ended) = true := by simp [top, live]
  have drained : l.task.drainFlush = _ := if_pos request
  have polled : (polling cbc).step l .poll =
      (⟨l.task.drainFlush.1, true⟩, l.task.drainFlush.2.map .output) := if_neg ready
  rw [polled, drained]
  rfl

end UdpTask

namespace TcpTask

variable {δ ρ : Type} [AlacDecode δ] [StreamResample ρ] (cbc : AesSession → List UInt8 → List UInt8)

theorem receive_store (t : TcpTask δ ρ) (nextSeq : Int) (packet : List UInt8) :
    receive cbc { t with flush := nextSeq } packet =
      ({ (receive cbc t packet).1 with flush := nextSeq }, (receive cbc t packet).2) := rfl

theorem deframeLoop_store (rounds : Nat) (t : TcpTask δ ρ) (nextSeq : Int) :
    deframeLoop cbc rounds { t with flush := nextSeq } =
      ({ (deframeLoop cbc rounds t).1 with flush := nextSeq }, (deframeLoop cbc rounds t).2) := by
  induction rounds generalizing t with
  | zero => rfl
  | succ rounds ih =>
    rw [deframeLoop_succ, deframeLoop_succ]
    dsimp only
    cases interleaved.next t.packetBuf with
    | more => rfl
    | stop => rfl
    | skip n => exact ih { t with packetBuf := t.packetBuf.drop n }
    | item packet n =>
      have rest := ih { (receive cbc t packet).1 with packetBuf := t.packetBuf.drop n }
      dsimp only
      rw [receive_store]
      dsimp only at rest ⊢
      rw [rest]

/-- Handling an event does not look at the flush request. -/
theorem handle_store (t : TcpTask δ ρ) (nextSeq : Int) (event : TcpEvent) :
    handle cbc { t with flush := nextSeq } event =
      ({ (handle cbc t event).1 with flush := nextSeq }, (handle cbc t event).2) := by
  cases event with
  | read bytes =>
    rw [handle, handle]
    split
    · rfl
    · rw [readBytes, readBytes]
      dsimp only
      split
      · rfl
      · exact deframeLoop_store cbc _ { t with packetBuf := t.packetBuf ++ bytes } nextSeq
  | readError => rfl
  | shutdown => rfl

/-- The task polls for a flush at the top of its loop. -/
def polling : Polling.Task (TcpTask δ ρ) Int TcpEvent SessionCall where
  slot t := t.flush
  store t nextSeq := { t with flush := nextSeq }
  serve := drainFlush
  handle := handle cbc
  ended t := t.ended.isSome
  slot_store _ _ := rfl
  store_slot _ := rfl
  store_store _ _ _ := rfl
  handle_store := handle_store cbc

/-- A loop at its top does the flush that is pending. -/
theorem step_poll {l : Loop (TcpTask δ ρ)} {nextSeq : Int} (top : l.waiting = false)
    (live : l.task.ended.isSome = false) (stored : l.task.flush = nextSeq)
    (request : nextSeq ≠ noFlush) :
    (polling cbc).step l .poll =
      ({ task :=
          { l.task with
            player := { l.task.player with buffer := l.task.player.buffer.flush nextSeq }
            flush := noFlush }
         waiting := true },
        [.output .audioFlush]) := by
  subst stored
  have ready : ¬(l.waiting || l.task.ended.isSome) = true := by simp [top, live]
  have drained : l.task.drainFlush = _ := if_pos request
  have polled : (polling cbc).step l .poll =
      (⟨l.task.drainFlush.1, true⟩, l.task.drainFlush.2.map .output) := if_neg ready
  rw [polled, drained]
  rfl

def inputOf : Turn Int TcpEvent → TcpInput
  | .store nextSeq => .flush nextSeq
  | .iteration event => .iteration event

theorem step_inputOf (t : TcpTask δ ρ) (turn : Turn Int TcpEvent) :
    t.step cbc (inputOf turn) = (polling cbc).turn t turn := by
  cases turn <;> rfl

/-- Whole iterations are enough: at the top of its loop the task is where some run of them
leaves it, and its session has got the same calls. -/
theorem schedule_iterates (t : TcpTask δ ρ) (inputs : List (Input Int TcpEvent))
    (top : (run (polling cbc).step ⟨t, false⟩ inputs).1.waiting = false) :
    ∃ turns, run (fun t turn => t.step cbc (inputOf turn)) t turns =
      ((run (polling cbc).step ⟨t, false⟩ inputs).1.task,
        outputs (run (polling cbc).step ⟨t, false⟩ inputs).2) := by
  have iterates := iterates_run (polling cbc) t inputs
  generalize run (polling cbc).step ⟨t, false⟩ inputs = reached at top iterates ⊢
  obtain ⟨l, log⟩ := reached
  cases iterates with
  | top turns out =>
    refine ⟨turns, ?_⟩
    simp only [step_inputOf]
    exact Prod.ext rfl out.symm
  | waits => cases top

end TcpTask

section Flush

variable {δ ρ : Type} [AlacDecode δ] [StreamResample ρ] (cbc : AesSession → List UInt8 → List UInt8)

/-- Once a flush is stored, no datagram and no read of the connection is handled before the buffer is
flushed and the session is told, up to the one that the suspended loop may have been waiting for:
whenever more are handled, the loop has come to its top before, with that one handled at most, and
has done the flush that was stored last there. -/
theorem flush_within_one_receive {nextSeq : Int} (request : nextSeq ≠ noFlush) :
    (∀ (l : Loop (UdpTask δ ρ)) (inputs : List (Input Int UdpEvent)),
      let step := (UdpTask.polling cbc).step
      .store noFlush ∉ inputs →
      l.waiting.toNat < receivedCount (run step l (.store nextSeq :: inputs)).2 →
      ∃ before after, inputs = before ++ .poll :: after ∧
        let reached := run step l (.store nextSeq :: before)
        let task := reached.1.task
        receivedCount reached.2 ≤ l.waiting.toNat ∧
        step reached.1 .poll =
          ({ task :=
              { task with
                player :=
                  { task.player with
                    buffer := task.player.buffer.flush (lastStored nextSeq before) }
                flush := noFlush }
             waiting := true },
            [.output .audioFlush])) ∧
    ∀ (l : Loop (TcpTask δ ρ)) (inputs : List (Input Int TcpEvent)),
      let step := (TcpTask.polling cbc).step
      .store noFlush ∉ inputs →
      l.waiting.toNat < receivedCount (run step l (.store nextSeq :: inputs)).2 →
      ∃ before after, inputs = before ++ .poll :: after ∧
        let reached := run step l (.store nextSeq :: before)
        let task := reached.1.task
        receivedCount reached.2 ≤ l.waiting.toNat ∧
        step reached.1 .poll =
          ({ task :=
              { task with
                player :=
                  { task.player with
                    buffer := task.player.buffer.flush (lastStored nextSeq before) }
                flush := noFlush }
             waiting := true },
            [.output .audioFlush]) := by
  constructor
  · intro l inputs step kept second
    obtain ⟨before, after, rfl, few, top, live, found⟩ := Task.polls_of_received
      (T := UdpTask.polling cbc) (l := { l with task := { l.task with flush := nextSeq } }) second
    refine ⟨before, after, rfl, few, ?_⟩
    have pending : lastStored nextSeq before ≠ noFlush :=
      lastStored_ne request fun mem => kept (List.mem_append_left _ mem)
    exact UdpTask.step_poll cbc top live found pending
  · intro l inputs step kept second
    obtain ⟨before, after, rfl, few, top, live, found⟩ := Task.polls_of_received
      (T := TcpTask.polling cbc) (l := { l with task := { l.task with flush := nextSeq } }) second
    refine ⟨before, after, rfl, few, ?_⟩
    have pending : lastStored nextSeq before ≠ noFlush :=
      lastStored_ne request fun mem => kept (List.mem_append_left _ mem)
    exact TcpTask.step_poll cbc top live found pending

end Flush

/-- Two packets of a UDP session that waits when a flush to 100 is stored. -/
def packetsAfterFlush : List (Input Int UdpEvent) :=
  [.event (.data (RaopBuffer.stereoPacket 0 7) UdpTask.senderAddr), .poll,
    .event (.data (RaopBuffer.stereoPacket 0 8) UdpTask.senderAddr)]

def waitingUdp : Loop (UdpTask Unit Unit) :=
  ⟨.start RaopBuffer.unusedStereo none 0 UdpTask.senderAddr, true⟩

/-- The second packet is handled after the flush. -/
theorem flush_within_one_receive_second :
    ∃ before after, packetsAfterFlush = before ++ .poll :: after ∧
      let step := (@UdpTask.polling Unit Unit RaopBuffer.silentAlac passThrough
        fun _ block => block).step
      let reached := run step waitingUdp (.store 100 :: before)
      receivedCount reached.2 ≤ 1 ∧ (step reached.1 .poll).2 = [.output .audioFlush] ∧
        (step reached.1 .poll).1.task.flush = noFlush := by
  obtain ⟨before, after, cut, few, flushed⟩ := (@flush_within_one_receive Unit Unit
    RaopBuffer.silentAlac passThrough (fun _ block => block) 100 (by decide)).1 waitingUdp
    packetsAfterFlush (by simp [packetsAfterFlush]) (by decide +kernel)
  exact ⟨before, after, cut, few, congrArg Prod.snd flushed,
    congrArg (fun stepped => stepped.1.task.flush) flushed⟩

/-- Packet 7 of a UDP session, received after a flush to 100 was stored: it is played, and the
flush is still to be done. -/
theorem packet_before_flush :
    let reached := run (@UdpTask.polling Unit Unit RaopBuffer.silentAlac passThrough
      fun _ block => block).step
      ⟨.start RaopBuffer.unusedStereo none 0 UdpTask.senderAddr, false⟩
      [.poll, .store 100, .event (.data (RaopBuffer.stereoPacket 0 7) UdpTask.senderAddr)]
    reached.2 = [.stored 100, .received (.data (RaopBuffer.stereoPacket 0 7) UdpTask.senderAddr),
        .output (.audioProcess [1 / 2, -1 / 2])] ∧
      reached.1.task.flush = 100 := by
  decide +kernel

end Shairplay.Raop
