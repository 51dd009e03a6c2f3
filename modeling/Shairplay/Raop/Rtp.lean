import Shairplay.Codec.Resample
import Shairplay.Raop.Buffer

/-!
# The receive task of classic AirPlay over TCP

The sender opens one connection and sends interleaved frames: a dollar sign, a channel,
a length of two bytes, and an RTP packet. The task collects what it reads, cuts off the
packets of channel 0, queues them without their sequence numbers and plays what the
buffer holds. A flush that the request handlers have asked for is done at the start of an
iteration.

The task is modelled from the accepted connection on. One iteration is one input: the
handling of an event does not look at the flush request, so a request that is stored while
the task waits is one that is stored after the event.
-/

namespace Shairplay.Raop

open Shairplay.Codec (StreamResample)

def noFlush : Int := -42

/-- What the task calls on its audio session. -/
inductive SessionCall
  | audioProcess (samples : List Sample)
  | audioFlush
  deriving DecidableEq

/-- The buffer of a session, with the resampler that its frames pass. -/
structure Player (δ ρ : Type) where
  buffer : RaopBuffer δ
  resampler : Option ρ

namespace Player

variable {δ ρ : Type} [StreamResample ρ]

/-- Pass samples to the session, through the resampler if there is one. -/
def process (p : Player δ ρ) (samples : List Sample) : Player δ ρ × SessionCall :=
  match p.resampler with
  | some rs =>
    ({ p with resampler := some (StreamResample.process rs samples).1 },
      .audioProcess (StreamResample.process rs samples).2)
  | none => (p, .audioProcess samples)

/-- Play frames while the buffer has one, at most `rounds` times. -/
def playLoop (noResend : Bool) : (rounds : Nat) → Player δ ρ → Player δ ρ × List SessionCall
  | 0, p => (p, [])
  | rounds + 1, p =>
    match p.buffer.dequeue noResend with
    | (_, none) => (p, [])
    | (buffer, some samples) =>
      let played := process { p with buffer } samples
      let rest := playLoop noResend rounds played.1
      (rest.1, played.2 :: rest.2)

/-- Play every frame that is due. The buffer counts the frames it can give, so the loop ends by
itself within that number of rounds and one more. -/
def play (noResend : Bool) (p : Player δ ρ) : Player δ ρ × List SessionCall :=
  playLoop noResend ((seqnumCmp p.buffer.lastSeqnum p.buffer.firstSeqnum + 1).toNat + 1) p

end Player

/-- Why the task ended. -/
inductive TcpEnd
  | streamEnded
  | safetyLimit
  | oversizedFrame
  | shutdown
  deriving DecidableEq

/-- State of the task, with the flush request that it shares with the request handlers. -/
structure TcpTask (δ ρ : Type) where
  player : Player δ ρ
  packetBuf : List UInt8
  flush : Int
  ended : Option TcpEnd

/-- What an iteration waits for. -/
inductive TcpEvent
  | read (bytes : List UInt8)
  | readError
  | shutdown

/-- An input of the task. -/
inductive TcpInput
  | flush (nextSeq : Int)
  | iteration (event : TcpEvent)

/-- The length of a packet, from the two bytes behind the channel. -/
def rtpLen (packetBuf : List UInt8) : Nat :=
  (packetBuf.getD 2 0).toNat <<< 8 ||| (packetBuf.getD 3 0).toNat

namespace TcpTask

variable {δ ρ : Type} [AlacDecode δ] [StreamResample ρ] (cbc : AesSession → List UInt8 → List UInt8)

/-- The task when the sender has connected. -/
def start (buffer : RaopBuffer δ) (resampler : Option ρ) : TcpTask δ ρ where
  player := { buffer, resampler }
  packetBuf := []
  flush := noFlush
  ended := none

/-- Queue a packet and play what is due. -/
def receive (t : TcpTask δ ρ) (packet : List UInt8) : TcpTask δ ρ × List SessionCall :=
  let queued : Player δ ρ :=
    { t.player with buffer := (t.player.buffer.queue cbc packet false).1 }
  ({ t with player := (queued.play true).1 }, (queued.play true).2)

/-- Cut packets off the collected bytes. Every round drains at least one byte. -/
def deframeLoop : (rounds : Nat) → TcpTask δ ρ → TcpTask δ ρ × List SessionCall
  | 0, t => (t, [])
  | rounds + 1, t =>
    if t.packetBuf.length < 4 then (t, [])
    else if t.packetBuf.getD 0 0 ≠ 0x24 ∨ t.packetBuf.getD 1 0 ≠ 0 then
      deframeLoop rounds { t with packetBuf := t.packetBuf.drop 1 }
    else if raopPacketLen < rtpLen t.packetBuf then
      ({ t with packetBuf := [], ended := some .oversizedFrame }, [])
    else if t.packetBuf.length < 4 + rtpLen t.packetBuf then (t, [])
    else
      let received := receive cbc t ((t.packetBuf.drop 4).take (rtpLen t.packetBuf))
      let rest := deframeLoop rounds
        { received.1 with packetBuf := t.packetBuf.drop (4 + rtpLen t.packetBuf) }
      (rest.1, received.2 ++ rest.2)

/-- Collect the bytes of a read and cut packets off. -/
def readBytes (t : TcpTask δ ρ) (bytes : List UInt8) : TcpTask δ ρ × List SessionCall :=
  let t := { t with packetBuf := t.packetBuf ++ bytes }
  if raopPacketLen * 4 < t.packetBuf.length then ({ t with ended := some .safetyLimit }, [])
  else deframeLoop cbc t.packetBuf.length t

def drainFlush (t : TcpTask δ ρ) : TcpTask δ ρ × List SessionCall :=
  if t.flush ≠ noFlush then
    ({ t with player := { t.player with buffer := t.player.buffer.flush t.flush }
              flush := noFlush }, [.audioFlush])
  else (t, [])

/-- Handle what an iteration waited for. -/
def handle (t : TcpTask δ ρ) : TcpEvent → TcpTask δ ρ × List SessionCall
  | .read bytes =>
    if bytes = [] then ({ t with ended := some .streamEnded }, []) else t.readBytes cbc bytes
  | .readError => ({ t with ended := some .streamEnded }, [])
  | .shutdown => ({ t with ended := some .shutdown }, [])

/-- One input of the task; a task that has ended does nothing. -/
def step (t : TcpTask δ ρ) : TcpInput → TcpTask δ ρ × List SessionCall
  | .flush nextSeq => ({ t with flush := nextSeq }, [])
  | .iteration event =>
    if t.ended.isSome then (t, [])
    else
      let drained := t.drainFlush
      let handled := drained.1.handle cbc event
      (handled.1, drained.2 ++ handled.2)

end TcpTask

end Shairplay.Raop
