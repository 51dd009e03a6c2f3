import Shairplay.Lib.Bytes
import Shairplay.Raop.Rtp.Udp

/-!
# The NTP timing responder

Classic AirPlay clients keep time with requests to a timing socket. A reply carries the time at
which the client sent its request and twice the time of the server. With the time at which the
reply comes back, the client knows the offset of the two clocks up to half of the round trip.
-/

namespace Shairplay.Raop.Ntp

open Lib Bytes

def ntpUnixEpochOffsetSecs : Nat := 0x83aa7e80

/-- Big-endian bytes of two `u32`s. -/
def stamp (secs frac : Nat) : List UInt8 := (leBytes 4 secs).reverse ++ (leBytes 4 frac).reverse

def putNtp (buf : List UInt8) (off secs frac : Nat) : List UInt8 :=
  buf.take off ++ stamp secs frac ++ buf.drop (off + 8)

def isTimingRequest (buf : List UInt8) : Bool :=
  32 ≤ buf.length && buf.getD 1 0 &&& 0x7f == 0x52

def buildTimingRequest (secs frac : Nat) : List UInt8 :=
  putNtp ([0x80, 0xd2, 0x00, 0x07] ++ List.replicate 28 0) 24 secs frac

def buildTimingResponse (request : List UInt8) (secs frac : Nat) : Option (List UInt8) :=
  if !isTimingRequest request then none
  else
    let resp := (request.take 32).set 1 0xd3
    let resp := resp.take 8 ++ (request.drop 24).take 8 ++ resp.drop 16
    some (putNtp (putNtp resp 16 secs frac) 24 secs frac)

def senderAllowed (remoteTiming sender : SocketAddr) : Bool :=
  remoteTiming.port == 0 || sender.ip = remoteTiming.ip

/-- Seconds and fraction of a second, from the nanoseconds of the UNIX clock. -/
def ntpNow (nanos : Nat) : Nat × Nat :=
  ((nanos / 1000000000 + ntpUnixEpochOffsetSecs) % 4294967296,
    nanos % 1000000000 * 4294967296 / 1000000000)

/-- What an iteration waits for, and the time of the UNIX clock then. -/
inductive NtpEvent
  | datagram (bytes : List UInt8) (sender : SocketAddr) (now : Nat)
  | timeout (now : Nat)
  | recvError

def received (datagram : List UInt8) : List UInt8 := datagram.take 128

/-- One iteration of the task, and what it sends. The state says that the loop has ended. -/
def step (remoteTiming : SocketAddr) (ended : Bool) :
    NtpEvent → Bool × List (List UInt8 × SocketAddr)
  | .datagram bytes sender now =>
    if ended || !isTimingRequest (received bytes) || !senderAllowed remoteTiming sender then
      (ended, [])
    else
      let resp := buildTimingResponse (received bytes) (ntpNow now).1 (ntpNow now).2
      (false, resp.toList.map fun resp => (resp, sender))
  | .timeout now =>
    if ended || remoteTiming.port == 0 then (ended, [])
    else (false, [(buildTimingRequest (ntpNow now).1 (ntpNow now).2, remoteTiming)])
  | .recvError => (true, [])

/-- A timestamp of a packet, in units of the fraction. -/
def ntpTime (buf : List UInt8) (off : Nat) : Nat := leNat ((buf.drop off).take 8).reverse

/-- The time since 1900 in the same units, rounded down. -/
def serverTime (now : Nat) : Nat :=
  ntpUnixEpochOffsetSecs * 4294967296 + now * 4294967296 / 1000000000

theorem leNat_stamp {secs frac : Nat} (fits : secs < 4294967296) (small : frac < 4294967296) :
    leNat (stamp secs frac).reverse = secs * 4294967296 + frac := by
  simp only [stamp, List.reverse_append, List.reverse_reverse, leBytes, List.cons_append,
    List.nil_append, leNat, UInt8.toNat_ofNat']
  omega

/-- The clock is written as it stands, until its seconds wrap in 2036. -/
theorem leNat_stamp_ntpNow {now : Nat}
    (era : now / 1000000000 + ntpUnixEpochOffsetSecs < 4294967296) :
    leNat (stamp (ntpNow now).1 (ntpNow now).2).reverse = serverTime now := by
  have small : now % 1000000000 * 4294967296 / 1000000000 < 4294967296 := by omega
  have whole : now * 4294967296 / 1000000000 = now % 1000000000 * 4294967296 / 1000000000 +
      now / 1000000000 * 4294967296 := by omega
  simp only [ntpNow, Nat.mod_eq_of_lt era, leNat_stamp era small, serverTime, whole]
  omega

/-- A reply is no request, and its timestamps are that of the request and twice that of the
server. -/
theorem buildTimingResponse_fields {request : List UInt8} (asked : isTimingRequest request = true)
    (secs frac : Nat) :
    ∃ reply, buildTimingResponse request secs frac = some reply ∧ isTimingRequest reply = false ∧
      ntpTime reply 8 = ntpTime request 24 ∧
      ntpTime reply 16 = leNat (stamp secs frac).reverse ∧
      ntpTime reply 24 = leNat (stamp secs frac).reverse := by
  have long : 32 ≤ request.length := by
    simp only [isTimingRequest, Bool.and_eq_true, decide_eq_true_eq] at asked
    exact asked.1
  -- the 32 bytes one by one, so that the fields can be read off
  obtain ⟨byte, bytes⟩ : ∃ byte : Fin 32 → UInt8, request.take 32 = List.ofFn byte := by
    refine ⟨fun i => request[i.val], List.ext_getElem (by simp [long]) fun i _ _ => ?_⟩
    rw [List.getElem_take, List.getElem_ofFn]
  have sent : (request.drop 24).take 8 = (List.ofFn byte).drop 24 := by
    rw [← bytes, List.drop_take]
  simp only [buildTimingResponse, asked, bytes, sent, Bool.not_true, Bool.false_eq_true, if_false]
  refine ⟨_, rfl, Bool.and_eq_false_imp.mpr fun _ => ?_, ?_, rfl, rfl⟩
  · change ((0xd3 : UInt8) &&& 0x7f == 0x52) = false
    decide
  · rw [ntpTime, ntpTime, sent]
    rfl

/-- An exchange with the responder. The reply is no request itself, so that two responders do not
answer each other forever. Before 2036, a client that sent its request at the time in it, and has
the reply at `back`, computes twice the offset of the clocks up to the round trip: `client` is what
its clock showed when the server read its own. -/
theorem timing_exchange {remoteTiming sender : SocketAddr} {bytes : List UInt8} {now : Nat}
    (asked : isTimingRequest (received bytes) = true)
    (allowed : senderAllowed remoteTiming sender = true) :
    ∃ reply, step remoteTiming false (.datagram bytes sender now) = (false, [(reply, sender)]) ∧
      isTimingRequest reply = false ∧
      (now / 1000000000 + ntpUnixEpochOffsetSecs < 4294967296 →
        ∀ client back : Nat, ntpTime (received bytes) 24 ≤ client → client ≤ back →
          |(ntpTime reply 16 - ntpTime reply 8 : Int) + (ntpTime reply 24 - back) -
              2 * (serverTime now - client)| ≤ back - ntpTime (received bytes) 24) := by
  obtain ⟨reply, built, other, origin, arrival, departure⟩ :=
    buildTimingResponse_fields asked (ntpNow now).1 (ntpNow now).2
  refine ⟨reply, by simp [step, asked, allowed, built], other, ?_⟩
  intro era client back sent after
  rw [leNat_stamp_ntpNow era] at arrival departure
  rw [origin, arrival, departure, abs_le]
  omega

/-- A client whose clock is four seconds behind asks at its UNIX epoch. The server reads its clock a
second later, and the reply takes another second: twice the four seconds are computed, up to the two
seconds of the round trip. -/
theorem timing_exchange_behind :
    ∃ reply, step ⟨.v4 1, 0⟩ false
        (.datagram (buildTimingRequest ntpUnixEpochOffsetSecs 0) ⟨.v4 1, 7000⟩ 5000000000) =
          (false, [(reply, ⟨.v4 1, 7000⟩)]) ∧
      isTimingRequest reply = false ∧
      |(ntpTime reply 16 - ntpTime reply 8 : Int) +
          (ntpTime reply 24 - ((ntpUnixEpochOffsetSecs + 2) * 4294967296 : Nat)) -
            2 * (4 * 4294967296)| ≤ 2 * 4294967296 := by
  obtain ⟨reply, sent, other, offset⟩ := @timing_exchange ⟨.v4 1, 0⟩ ⟨.v4 1, 7000⟩
    (buildTimingRequest ntpUnixEpochOffsetSecs 0) 5000000000 (by decide) (by decide)
  refine ⟨reply, sent, other, ?_⟩
  have bound := offset (by decide) ((ntpUnixEpochOffsetSecs + 1) * 4294967296)
    ((ntpUnixEpochOffsetSecs + 2) * 4294967296) (by decide) (by decide)
  have asked : ntpTime (received (buildTimingRequest ntpUnixEpochOffsetSecs 0)) 24 =
      ntpUnixEpochOffsetSecs * 4294967296 := by decide
  have read : serverTime 5000000000 = (ntpUnixEpochOffsetSecs + 5) * 4294967296 := by decide
  rw [asked, read] at bound
  simp only [ntpUnixEpochOffsetSecs] at bound ⊢
  rw [abs_le] at bound ⊢
  omega

end Shairplay.Raop.Ntp
