import Shairplay.Lib.Polling
import Shairplay.Raop.Rtp.Player

/-!
# The receive task of classic AirPlay over UDP

Audio packets come to a data socket and retransmitted ones to a control socket. A packet of
the data socket is queued and every frame that is due is played; a retransmitted packet is
only queued, and plays with the next packet of the data socket.

Audio in order is never taken for a jump of the sender: there is always room for the number
after the newest one, as long as no retransmitted packet is ahead of it.
-/

namespace Shairplay.Raop

open Lib Machine Polling
open Shairplay.Codec (StreamResample passThrough)

inductive IpAddr
  | v4 (address : BitVec 32)
  | v6 (address : BitVec 128)
  deriving DecidableEq

structure SocketAddr where
  ip : IpAddr
  port : Nat
  deriving DecidableEq

def peerIpMatches (expected sender : SocketAddr) : Bool := sender.ip = expected.ip

def ctrlPayloadType : UInt8 := 0x56

/-- Length of the header in front of a retransmitted packet. -/
def retransmitHeaderLen : Nat := 4

/-- What an iteration waits for. -/
inductive UdpEvent
  | data (datagram : List UInt8) (sender : SocketAddr)
  | control (datagram : List UInt8) (sender : SocketAddr)
  | recvError
  | shutdown
  deriving DecidableEq

/-- State of the task, with the flush request that it shares with the request handlers. -/
structure UdpTask (δ ρ : Type) where
  player : Player δ ρ
  noResend : Bool
  remoteSocket : SocketAddr
  flush : Int
  ended : Bool

namespace UdpTask

variable {δ ρ : Type}

/-- The task when its sockets are bound. A control port of 0 means that the sender does not
retransmit. -/
def start (buffer : RaopBuffer δ) (resampler : Option ρ) (controlRport : Nat)
    (remoteSocket : SocketAddr) : UdpTask δ ρ where
  player := { buffer, resampler }
  noResend := controlRport = 0
  remoteSocket := remoteSocket
  flush := noFlush
  ended := false

/-- A datagram as it is received: what does not fit is cut off. -/
def received (datagram : List UInt8) : List UInt8 := datagram.take raopPacketLen

/-- The audio packet in a datagram of the data socket, if it comes from the sender. -/
def dataPacket (t : UdpTask δ ρ) (datagram : List UInt8) (sender : SocketAddr) :
    Option (List UInt8) :=
  let packet := received datagram
  if peerIpMatches t.remoteSocket sender ∧ 12 ≤ packet.length then some packet else none

/-- The audio packet in a datagram of the control socket, behind the header of four bytes. -/
def retransmitted (t : UdpTask δ ρ) (datagram : List UInt8) (sender : SocketAddr) :
    Option (List UInt8) :=
  let packet := received datagram
  if peerIpMatches t.remoteSocket sender ∧ 12 ≤ packet.length ∧
      packet.getD 1 0 &&& ~~~0x80 = ctrlPayloadType then
    if retransmitHeaderLen < packet.length then some (packet.drop retransmitHeaderLen) else none
  else none

def drainFlush (t : UdpTask δ ρ) : UdpTask δ ρ × List SessionCall :=
  if t.flush ≠ noFlush then
    ({ t with player := { t.player with buffer := t.player.buffer.flush t.flush }
              flush := noFlush }, [.audioFlush])
  else (t, [])

variable [AlacDecode δ] [StreamResample ρ] (cbc : AesSession → List UInt8 → List UInt8)

/-- The buffer with a packet queued under its own number. -/
def queue (t : UdpTask δ ρ) (packet : List UInt8) : Player δ ρ :=
  { t.player with buffer := (t.player.buffer.queue cbc packet true).1 }

/-- Handle what an iteration waited for. -/
def handle (t : UdpTask δ ρ) : UdpEvent → UdpTask δ ρ × List SessionCall
  | .data datagram sender =>
    match t.dataPacket datagram sender with
    | some packet =>
      let played := (t.queue cbc packet).play t.noResend
      ({ t with player := played.1 }, played.2)
    | none => (t, [])
  | .control datagram sender =>
    match t.retransmitted datagram sender with
    | some packet => ({ t with player := t.queue cbc packet }, [])
    | none => (t, [])
  | .recvError => (t, [])
  | .shutdown => ({ t with ended := true }, [])

/-- Handling an event does not look at the flush request. -/
theorem handle_store (t : UdpTask δ ρ) (nextSeq : Int) (event : UdpEvent) :
    handle cbc { t with flush := nextSeq } event =
      ({ (handle cbc t event).1 with flush := nextSeq }, (handle cbc t event).2) := by
  cases event with
  | data datagram sender =>
    have same : dataPacket { t with flush := nextSeq } datagram sender =
        t.dataPacket datagram sender := rfl
    rw [handle, same, handle]
    cases t.dataPacket datagram sender <;> rfl
  | control datagram sender =>
    have same : retransmitted { t with flush := nextSeq } datagram sender =
        t.retransmitted datagram sender := rfl
    rw [handle, same, handle]
    cases t.retransmitted datagram sender <;> rfl
  | recvError => rfl
  | shutdown => rfl

/-- The task polls for a flush at the top of its loop. -/
def polling : Polling.Task (UdpTask δ ρ) Int UdpEvent SessionCall where
  slot t := t.flush
  store t nextSeq := { t with flush := nextSeq }
  serve := drainFlush
  handle := handle cbc
  ended t := t.ended
  slot_store _ _ := rfl
  store_slot _ := rfl
  store_store _ _ _ := rfl
  handle_store := handle_store cbc

/-- A retransmitted packet that is not ahead of the newest one. -/
def Retransmits (l : Loop (UdpTask δ ρ)) : Input Int UdpEvent → Prop
  | .event (.control datagram sender) =>
    ∀ packet ∈ l.task.retransmitted datagram sender, l.task.player.buffer.isEmpty = false →
      seqnumCmp (RaopBuffer.rtpSeqnum packet) l.task.player.buffer.lastSeqnum ≤ 0
  | _ => True

instance (l : Loop (UdpTask δ ρ)) : (i : Input Int UdpEvent) → Decidable (Retransmits l i)
  | .event (.control datagram sender) =>
    inferInstanceAs (Decidable (∀ _ ∈ l.task.retransmitted datagram sender, _ → _))
  | .event (.data ..) => .isTrue trivial
  | .event .recvError => .isTrue trivial
  | .event .shutdown => .isTrue trivial
  | .store _ => .isTrue trivial
  | .poll => .isTrue trivial

omit [StreamResample ρ] in
theorem slack_build {rtpmap fmtp : String} {aes : Option AesSession} {b : RaopBuffer δ}
    (built : RaopBuffer.build rtpmap fmtp aes = some b) : b.Slack := by
  obtain ⟨⟨codec, capacity, silence⟩, -, same⟩ := Option.bind_eq_some_iff.mp built
  cases same
  show Serial.dist (0 + 1 : BitVec 16) 0 ≤ 31
  decide

theorem slack_handle {t : UdpTask δ ρ} (slack : t.player.buffer.Slack) (event : UdpEvent)
    (retransmits : Retransmits ⟨t, true⟩ (.event event)) :
    (t.handle cbc event).1.player.buffer.Slack := by
  cases event with
  | data datagram sender =>
    rw [handle]
    cases t.dataPacket datagram sender with
    | none => exact slack
    | some packet => exact Player.play_slack _ (slack.queue packet true)
  | control datagram sender =>
    rw [handle]
    cases carried : t.retransmitted datagram sender with
    | none => exact slack
    | some packet => exact slack.queue_old packet (retransmits packet carried)
  | recvError => exact slack
  | shutdown => exact slack

theorem slack_step (l : Loop (UdpTask δ ρ)) (i : Input Int UdpEvent)
    (slack : l.task.player.buffer.Slack) (retransmits : Retransmits l i) :
    ((polling cbc).step l i).1.task.player.buffer.Slack := by
  apply Task.step_keeps (P := fun t : UdpTask δ ρ => t.player.buffer.Slack) (polling cbc) slack
  · intro t nextSeq slack
    exact slack
  · intro t slack
    show (drainFlush t).1.player.buffer.Slack
    unfold drainFlush
    split
    · exact slack.flush _
    · exact slack
  · rintro event rfl
    exact slack_handle cbc slack event retransmits

/-- In every run without a retransmitted packet ahead of the newest one, at most 31 numbers are
pending and the number after the newest does not make the buffer start anew. This holds at
every point of the loop, not only after a packet of the data socket. -/
theorem in_order_not_discarded {rtpmap fmtp : String} {aes : Option AesSession}
    {b : RaopBuffer δ} (built : RaopBuffer.build rtpmap fmtp aes = some b) (resampler : Option ρ)
    (controlRport : Nat) (remoteSocket : SocketAddr) {inputs : List (Input Int UdpEvent)}
    (retransmits : Always (polling cbc).step Retransmits
      ⟨start b resampler controlRport remoteSocket, false⟩ inputs) :
    let reached := (run (polling cbc).step
      ⟨start b resampler controlRport remoteSocket, false⟩ inputs).1.task.player.buffer
    reached.pendingCount ≤ 31 ∧ ∀ data, RaopBuffer.rtpSeqnum data = reached.lastSeqnum + 1 →
      reached.isFarAhead (reached.packetSeqnum data true) = false := by
  intro reached
  have slack : reached.Slack :=
    retransmits.run_keeps (P := fun l => l.task.player.buffer.Slack) (slack_step cbc)
      (slack_build built)
  refine ⟨reached.pendingCount_le_span.trans slack, ?_⟩
  intro data next
  have number : reached.packetSeqnum data true = reached.lastSeqnum + 1 := next
  rw [number]
  exact slack.not_farAhead

def senderAddr : SocketAddr := ⟨.v4 0x0a000001, 6000⟩

/-- Packets 1 and 3, and packet 2 again on the control socket. -/
def gapInputs : List (Input Int UdpEvent) :=
  [.poll, .event (.data (RaopBuffer.stereoPacket 0 1) senderAddr),
    .poll, .event (.data (RaopBuffer.stereoPacket 0 3) senderAddr),
    .poll, .event (.control ([0x80, 0xd6, 0, 1] ++ RaopBuffer.stereoPacket 0 2) senderAddr)]

theorem in_order_not_discarded_gap :
    let reached := (run (@polling Unit Unit RaopBuffer.silentAlac passThrough
      fun _ block => block).step ⟨start RaopBuffer.unusedStereo none 6001 senderAddr, false⟩
        gapInputs).1.task.player.buffer
    reached.pendingCount ≤ 31 ∧ ∀ data, RaopBuffer.rtpSeqnum data = reached.lastSeqnum + 1 →
      reached.isFarAhead (reached.packetSeqnum data true) = false :=
  @in_order_not_discarded Unit Unit RaopBuffer.silentAlac passThrough
    (fun _ block => block) "96 L16/44100/2" "" none RaopBuffer.unusedStereo rfl none 6001 senderAddr
    gapInputs (by decide +kernel)

end UdpTask

end Shairplay.Raop
