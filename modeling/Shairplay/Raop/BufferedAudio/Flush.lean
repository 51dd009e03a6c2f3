import Shairplay.Raop.BufferedAudio.Steps
import Shairplay.Raop.Rtsp

/-!
# FLUSHBUFFERED

The request names the first and the last sequence number to flush. The command that carries
them is applied to a buffer that is ordered by timestamp, and nothing keeps the sequence
number of a packet whose frame was stored.
-/

namespace Shairplay.Raop.BufferedAudio

open Lib Crypto OrderedMap
open Shairplay.Codec (AacCodec StreamResample)

/-- The sequence numbers that a request names, the first and the last one. -/
def requestedRange (plist : Plist) : Nat × Nat :=
  let dict : Dictionary := plist.asDictionary.getD []
  (dict.unsigned "flushFromSeq" 0, dict.unsigned "flushUntilSeq" 0)

/-- The packets whose frames were stored under a timestamp, in order. -/
def storedAt (ts : BitVec 32) (log : List Action) : List (List UInt8) :=
  log.filterMap fun action =>
    match action with
    | .stored timestamp packet => if timestamp = ts then some packet else none
    | _ => none

/-- The packet that a buffered frame came in. -/
def origin (log : List Action) (ts : BitVec 32) : Option (List UInt8) := (storedAt ts log).getLast?

/-- A number lies in a range, with both ends. -/
def Within (range : Nat × Nat) (n : Nat) : Prop := range.1 ≤ n ∧ n ≤ range.2

instance (range : Nat × Nat) (n : Nat) : Decidable (Within range n) :=
  inferInstanceAs (Decidable (_ ∧ _))

/-- Exactly the frames whose packets have a sequence number in the range are gone. -/
def FlushedExactly (sequence : List UInt8 → Nat) (range : Nat × Nat) (log : List Action)
    (before after : FrameMap) : Prop :=
  (∀ ts : BitVec 32, before[ts]? = none → after[ts]? = none) ∧
    ∀ (ts : BitVec 32) frame, before[ts]? = some frame → ∃ packet, origin log ts = some packet ∧
      after[ts]? = if Within range (sequence packet) then none else some frame

/-- Every timestamp in the buffer lies in the range, as 32-bit numbers, just when the sequence
number of its packet does. -/
def TimestampsAgree (sequence : List UInt8 → Nat) (range : Nat × Nat) (log : List Action)
    (buffer : FrameMap) : Prop :=
  ∀ ts packet, ts ∈ buffer → origin log ts = some packet →
    (Within (asU32 range.1, asU32 range.2) ts.toNat ↔ Within range (sequence packet))

theorem origin_append (log actions : List Action) (ts : BitVec 32) :
    origin (log ++ actions) ts = (origin actions ts).or (origin log ts) := by
  rw [origin, storedAt, List.filterMap_append, List.getLast?_append]
  rfl

theorem stored_of_origin {log : List Action} {ts : BitVec 32} {packet : List UInt8}
    (came : origin log ts = some packet) : .stored ts packet ∈ log := by
  obtain ⟨action, mem, is⟩ := List.mem_filterMap.mp (List.mem_of_getLast? came)
  cases action with
  | stored timestamp packet' =>
    dsimp only at is
    by_cases same : timestamp = ts
    · rw [if_pos same] at is
      cases is
      rwa [same] at mem
    · rw [if_neg same] at is
      cases is
  | _ => cases is

namespace Engine

variable {κ ρ : Type} [AacCodec κ] [StreamResample ρ]
  {config : OutputConfig} {aead : Aead} {key : List UInt8} {e e' : Engine κ ρ}

/-- Every buffered frame came in a packet with its timestamp. -/
def Sourced (e : Engine κ ρ) (log : List Action) : Prop :=
  ∀ (ts : BitVec 32) frame, e.playout.buffer[ts]? = some frame →
    ∃ packet, origin log ts = some packet ∧ timestampOf packet = ts

theorem Sourced.step {event : Event} {log actions : List Action} (sourced : Sourced e log)
    (step : Step config aead key e event e' actions) : Sourced e' (log ++ actions) := by
  intro ts frame held
  rw [origin_append]
  cases now : origin actions ts with
  | some packet => exact ⟨packet, rfl, (step.of_stored (stored_of_origin now)).1⟩
  | none =>
    -- nothing was stored here by this step, so the frame is an old one
    obtain old | ⟨⟨packet, stored⟩, -⟩ := step.held held
    · exact sourced ts frame old
    · rw [stored] at now
      simp [origin, storedAt] at now

/-- In every run, buffered frames come from packets. -/
theorem sourced_run (events : List Event) :
    Sourced (run config aead key events : Engine κ ρ × List Action).1
      (run config aead key events : Engine κ ρ × List Action).2 := by
  have start : Sourced (start config : Engine κ ρ) [] := by
    intro ts frame held
    simp [Engine.start, PlayoutState.start] at held
  exact Machine.run_history (P := Sourced)
    (fun e log event sourced => sourced.step (step_listed event)) start events

end Engine

theorem handleFlushBuffered_sends {env : Platform} {w : World} {request : Proto.Request}
    {response : Proto.HttpResponse} {task : Nat} {plist : Plist}
    (playing : w.conn.playoutCmd = some task) (parsed : requestPlist env request = some plist) :
    (handleFlushBuffered env w request response).world =
      w.emit (.playoutCommand task
        (.flush (asU32 (requestedRange plist).1) (asU32 (requestedRange plist).2))) := by
  simp only [handleFlushBuffered, parsed, World.playout, playing, Outcome.none]
  rfl

theorem applyPlayoutCommand_flush (s : PlayoutState) (nowNs fromSeq untilSeq : Nat)
    (ts : BitVec 32) :
    (s.applyPlayoutCommand nowNs (.flush fromSeq untilSeq)).1.buffer[ts]? =
      if Within (fromSeq, untilSeq) ts.toNat then none else s.buffer[ts]? := by
  have removed := getElem?_eraseAll_filter (m := s.buffer) (k := ts)
    fun ts => decide (fromSeq ≤ ts.toNat ∧ ts.toNat ≤ untilSeq)
  simp only [decide_eq_true_eq] at removed
  exact removed

/-- A request flushes exactly the frames it names, just when timestamps and sequence numbers
agree about its range. This is so for every run of the stream before it, and for every way to
read the sequence number of a packet. -/
theorem flushBuffered_exact_iff {κ ρ : Type} [AacCodec κ] [StreamResample ρ]
    (config : OutputConfig) (aead : Aead) (key : List UInt8) (events : List Event)
    (sequence : List UInt8 → Nat) (env : Platform) (w : World) (request : Proto.Request)
    (response : Proto.HttpResponse) (nowNs task : Nat) (plist : Plist)
    (playing : w.conn.playoutCmd = some task) (parsed : requestPlist env request = some plist) :
    ∃ command,
      (handleFlushBuffered env w request response).world.effects =
        w.effects ++ [.playoutCommand task command] ∧
      let stream : Engine κ ρ × List Action := Engine.run config aead key events
      (FlushedExactly sequence (requestedRange plist) stream.2 stream.1.playout.buffer
          (stream.1.playout.applyPlayoutCommand nowNs command).1.buffer ↔
        TimestampsAgree sequence (requestedRange plist) stream.2 stream.1.playout.buffer) := by
  refine ⟨_, congrArg World.effects (handleFlushBuffered_sends playing parsed), ?_⟩
  intro stream
  have sourced : Engine.Sourced stream.1 stream.2 := Engine.sourced_run events
  constructor
  · intro exact_ ts packet there came
    obtain ⟨frame, held⟩ := Option.isSome_iff_exists.mp (Std.TreeMap.mem_iff_isSome_getElem?.mp there)
    obtain ⟨packet', came', left⟩ := exact_.2 ts frame held
    rw [applyPlayoutCommand_flush, held] at left
    cases came.symm.trans came'
    by_cases stamp :
        Within (asU32 (requestedRange plist).1, asU32 (requestedRange plist).2) ts.toNat
    · rw [if_pos stamp] at left
      by_cases number : Within (requestedRange plist) (sequence packet)
      · exact iff_of_true stamp number
      · rw [if_neg number] at left
        cases left
    · rw [if_neg stamp] at left
      by_cases number : Within (requestedRange plist) (sequence packet)
      · rw [if_pos number] at left
        cases left
      · exact iff_of_false stamp number
  · intro agree
    constructor
    · intro ts absent
      rw [applyPlayoutCommand_flush, absent, ite_self]
    · intro ts frame held
      obtain ⟨packet, came, -⟩ := sourced ts frame held
      refine ⟨packet, came, ?_⟩
      have there : ts ∈ stream.1.playout.buffer :=
        Std.TreeMap.mem_iff_isSome_getElem?.mpr (by rw [held]; rfl)
      rw [applyPlayoutCommand_flush, held]
      exact if_congr (agree ts packet there came) rfl rfl

def rtpSequence (packet : List UInt8) : Nat := beU16 packet 2

/-- The binary property list of a request for the sequence number 1. -/
def flushPlist : List UInt8 :=
  Utf8.encode "bplist00" ++ [210, 1, 2, 3, 3, 92] ++ Utf8.encode "flushFromSeq" ++ [93] ++
    Utf8.encode "flushUntilSeq" ++ [16, 1, 8, 13, 26, 40, 0, 0, 0, 0, 0, 0, 1, 1] ++
    [0, 0, 0, 0, 0, 0, 0, 4] ++ List.replicate 15 0 ++ [42]

/-- What the list above says. -/
def flushRange : Plist := .dictionary [("flushFromSeq", .integer 1), ("flushUntilSeq", .integer 1)]

def flushPlatform : Platform where
  __ := inertPlatform
  plistFromBytes := fun data => if data = flushPlist then some flushRange else none

def flushRequest : Proto.Request := { method := some "FLUSHBUFFERED", body := some flushPlist }

/-- A connection that has started a buffered stream. -/
def bufferedWorld : World where
  conn := { localAddr := [10, 0, 0, 2], nonce := "nonce", playoutCmd := some 0 }
  shared := {}
  ambient := {}

/-- A stream of packets with these sequence numbers and timestamps. -/
def packets (stamps : List (UInt8 × UInt8)) : List Event :=
  stamps.flatMap fun stamp => [.packet (audioPacket stamp.1 stamp.2 0x16 0), .payload]

def okResponse : Proto.HttpResponse := .new "RTSP/1.0" 200 "OK"

/-- The request for the sequence number 1 leaves the packet with this number, because its
timestamp is 7. -/
theorem flushBuffered_misses_packet :
    let stream := pairRun (packets [(1, 7)])
    (handleFlushBuffered flushPlatform bufferedWorld flushRequest okResponse).world.effects =
        [.playoutCommand 0 (.flush 1 1)] ∧
      (origin stream.2 7).map rtpSequence = some 1 ∧
      (stream.1.playout.applyPlayoutCommand 0 (.flush 1 1)).1.buffer.keys = [7] ∧
      ¬ FlushedExactly rtpSequence (1, 1) stream.2 stream.1.playout.buffer
        (stream.1.playout.applyPlayoutCommand 0 (.flush 1 1)).1.buffer := by
  intro stream
  have sent : (handleFlushBuffered flushPlatform bufferedWorld flushRequest
      okResponse).world.effects = [.playoutCommand 0 (.flush 1 1)] := by decide +kernel
  have came : (origin stream.2 7).map rtpSequence = some 1 := by decide +kernel
  have kept : (stream.1.playout.applyPlayoutCommand 0 (.flush 1 1)).1.buffer.keys = [7] := by
    decide +kernel
  refine ⟨sent, came, kept, ?_⟩
  intro flushed
  have left : (7 : BitVec 32) ∈ (stream.1.playout.applyPlayoutCommand 0 (.flush 1 1)).1.buffer := by
    rw [← Std.TreeMap.mem_keys, kept]
    exact List.mem_singleton_self _
  obtain ⟨frame, held⟩ := Option.isSome_iff_exists.mp (Std.TreeMap.mem_iff_isSome_getElem?.mp left)
  obtain ⟨packet, was, gone⟩ := flushed.2 7 frame (PlayoutState.getElem?_of_applyPlayoutCommand held)
  rw [was, Option.map_some] at came
  rw [held, if_pos (by rw [Option.some.inj came]; decide)] at gone
  cases gone

/-- Of three packets the request removes the one with this number, whose timestamp is the same. -/
theorem flushBuffered_exact_stamped :
    let stream := pairRun (packets [(1, 1), (2, 3), (3, 9)])
    stream.1.playout.buffer.keys = [1, 3, 9] ∧
      (stream.1.playout.applyPlayoutCommand 0 (.flush 1 1)).1.buffer.keys = [3, 9] ∧
      ∃ command,
        (handleFlushBuffered flushPlatform bufferedWorld flushRequest
            okResponse).world.effects = [.playoutCommand 0 command] ∧
        FlushedExactly rtpSequence (1, 1) stream.2 stream.1.playout.buffer
          (stream.1.playout.applyPlayoutCommand 0 command).1.buffer := by
  intro stream
  have stored : stream.1.playout.buffer.keys = [1, 3, 9] := by decide +kernel
  have came : [1, 3, 9].map (fun ts => (origin stream.2 ts).map rtpSequence) =
      [some 1, some 2, some 3] := by decide +kernel
  simp only [List.map_cons, List.map_nil, List.cons.injEq, and_true] at came
  have parsed : requestPlist flushPlatform flushRequest = some flushRange := by
    simp [requestPlist, flushRequest, flushPlatform]
  obtain ⟨command, sent, flushes⟩ := @flushBuffered_exact_iff Unit Unit pairCodec noResampler
    nativeOutput tagCipher [] (packets [(1, 1), (2, 3), (3, 9)]) rtpSequence flushPlatform
    bufferedWorld flushRequest okResponse 0 0 flushRange rfl parsed
  refine ⟨stored, by decide +kernel, command, sent, flushes.mpr ?_⟩
  intro ts packet there was
  rw [← Std.TreeMap.mem_keys] at there
  have was : origin stream.2 ts = some packet := was
  have listed : ts ∈ [(1 : BitVec 32), 3, 9] := stored ▸ there
  simp only [List.mem_cons, List.not_mem_nil, or_false] at listed
  rcases listed with rfl | rfl | rfl
  · rw [was, Option.map_some, Option.some.injEq] at came
    rw [came.1]
    decide
  · rw [was, Option.map_some, Option.some.injEq] at came
    rw [came.2.1]
    decide
  · rw [was, Option.map_some, Option.some.injEq] at came
    rw [came.2.2]
    decide

end Shairplay.Raop.BufferedAudio
