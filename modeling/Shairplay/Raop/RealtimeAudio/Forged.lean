import Shairplay.Raop.BufferedAudio.Steps
import Shairplay.Raop.RealtimeAudio

/-!
# Packets that fail authentication

Both receivers look at a packet before its tag is checked. The buffered one reads the stream
format from the header, the realtime one sets up with the first packet it sees. Nothing else
of a packet that fails the check is used: the rest of the engine runs as if only its header
had come, and a realtime receiver that has a session ignores it.
-/

namespace Shairplay.Raop

open Lib Machine Crypto
open Shairplay.Codec (AacCodec AlacDecoder StreamResample)

namespace BufferedAudio

def Event.ofReceiver : Event → Bool
  | .packet _ | .payload | .closed => true
  | _ => false

namespace Engine

section Threads

variable {κ ρ : Type}

/-- The engine with another packet in the receive loop, or none. -/
def holding (incoming : Option (List UInt8)) (e : Engine κ ρ) : Engine κ ρ := { e with incoming }

theorem holding_self {e : Engine κ ρ} {incoming : Option (List UInt8)}
    (held : e.incoming = incoming) : e.holding incoming = e := by
  cases held
  rfl

theorem openSession_holding (incoming : Option (List UInt8)) (e : Engine κ ρ) :
    (e.holding incoming).openSession = (e.openSession.1.holding incoming, e.openSession.2) := by
  by_cases opens : e.session.isNone ∨ e.playout.formatChanged
  · have opens' : (e.holding incoming).session.isNone ∨
        (e.holding incoming).playout.formatChanged := opens
    rw [openSession, if_pos opens', openSession, if_pos opens]
    rfl
  · have opens' : ¬((e.holding incoming).session.isNone ∨
        (e.holding incoming).playout.formatChanged) := opens
    rw [openSession, if_neg opens', openSession, if_neg opens]

theorem command_holding (incoming : Option (List UInt8)) (e : Engine κ ρ) (nowNs : Nat) :
    (e.holding incoming).command nowNs = (e.command nowNs).holding incoming := by
  cases handling : e.handling <;> cases queued : e.commands <;>
    simp only [command, holding, handling, queued]

theorem deliver_holding (incoming : Option (List UInt8)) (e : Engine κ ρ) (nowNs : Nat) :
    (e.holding incoming).deliver nowNs =
      ((e.deliver nowNs).1.holding incoming, (e.deliver nowNs).2) := by
  have opened := openSession_holding incoming e
  cases delivery : e.delivery with
  | playing batch => simp only [deliver, holding, delivery]
  | ended => simp only [deliver, holding, delivery]
  | locking =>
    have locking : (e.holding incoming).delivery = .locking := delivery
    have same : (e.holding incoming).playout = e.playout := rfl
    simp only [deliver, delivery, locking, opened, same]
    by_cases waits : e.playout.waits = true
    · simp only [if_pos waits]
    · by_cases stopped : e.playout.stopped = true
      · simp only [if_neg waits, if_pos stopped]
        rfl
      · simp only [if_neg waits, if_neg stopped]
        rfl

theorem play_holding (incoming : Option (List UInt8)) (e : Engine κ ρ) :
    (e.holding incoming).play = (e.play.1.holding incoming, e.play.2) := by
  cases delivery : e.delivery with
  | locking => simp only [play, holding, delivery]
  | ended => simp only [play, holding, delivery]
  | playing batch =>
    cases session : e.session with
    | none => simp only [play, holding, delivery, session]
    | some format =>
      cases flush : batch.flush <;> cases ready : batch.ready <;>
        simp [play, holding, delivery, session, flush, ready]

variable [AacCodec κ] [StreamResample ρ] (config : OutputConfig) (aead : Aead) (key : List UInt8)

/-- The other threads neither see nor touch the packet in the receive loop. -/
theorem step_holding (incoming : Option (List UInt8)) (e : Engine κ ρ) {event : Event}
    (other : event.ofReceiver = false) :
    step config aead key (e.holding incoming) event =
      ((step config aead key e event).1.holding incoming, (step config aead key e event).2) := by
  cases event with
  | packet _ | payload | closed => cases other
  | send command => rfl
  | command nowNs => exact congrArg (·, []) (command_holding incoming e nowNs)
  | deliver nowNs => exact deliver_holding incoming e nowNs
  | play => exact play_holding incoming e

theorem run_holding (incoming : Option (List UInt8)) (e : Engine κ ρ) {between : List Event}
    (others : ∀ event ∈ between, event.ofReceiver = false) :
    Machine.run (step config aead key) (e.holding incoming) between =
      ((Machine.run (step config aead key) e between).1.holding incoming,
        (Machine.run (step config aead key) e between).2) :=
  Machine.run_commutes (fun s event mem => step_holding config aead key incoming s
    (others event mem)) e

/-- What the header of a packet does: a packet that is long enough may change the format. -/
def afterHeader (e : Engine κ ρ) (packet : List UInt8) : Engine κ ρ × List Action :=
  if rtpHeaderLen + nonceTrailLen < packet.length ∧ e.receiver.changesFormat packet then
    e.changeFormat config (ssrcOf packet)
  else (e, [])

variable {config} {e : Engine κ ρ} {packet : List UInt8}

theorem packet_of_short (short : packet.length ≤ rtpHeaderLen + nonceTrailLen) :
    e.packet config packet = (e, []) ∧ e.afterHeader config packet = (e, []) := by
  constructor
  · simp only [Engine.packet, if_pos short, ite_self]
  · exact if_neg fun long => Nat.not_lt.mpr short long.1

theorem packet_of_long (reads : e.reads = true)
    (long : rtpHeaderLen + nonceTrailLen < packet.length) :
    e.packet config packet =
      ((e.afterHeader config packet).1.holding (some packet), (e.afterHeader config packet).2) := by
  have guard : ¬packet.length ≤ rtpHeaderLen + nonceTrailLen := Nat.not_le.mpr long
  by_cases changes : e.receiver.changesFormat packet = true
  · simp [Engine.packet, afterHeader, holding, reads, guard, long, changes]
  · simp [Engine.packet, afterHeader, holding, reads, guard, changes]

/-- A loop that is about to read has no packet, and the header alone gives it none. -/
theorem afterHeader_incoming (reads : e.reads = true) :
    (e.afterHeader config packet).1.incoming = none := by
  have empty : e.incoming = none := by
    rw [Engine.reads, Bool.and_eq_true] at reads
    exact Option.isNone_iff_eq_none.mp reads.2
  unfold afterHeader
  split
  · exact empty
  · exact empty

variable {aead key}

/-- The check fails, and the packet is gone. -/
theorem payload_of_forged (forged : decryptRtpChacha aead key packet = none) :
    (e.holding (some packet)).payload aead key = (e.holding none, []) := by
  simp only [payload, holding, forged]

theorem payload_of_empty : (e.holding none).payload aead key = (e.holding none, []) := rfl

variable (config) in
/-- A packet that fails the check, with what the other threads do meanwhile, is its header
and then the other threads. -/
theorem run_forged {between : List Event} (reads : e.reads = true)
    (forged : decryptRtpChacha aead key packet = none)
    (others : ∀ event ∈ between, event.ofReceiver = false) :
    Machine.run (step config aead key) e (.packet packet :: between ++ [.payload]) =
      ((Machine.run (step config aead key) (e.afterHeader config packet).1 between).1,
        (e.afterHeader config packet).2 ++
          (Machine.run (step config aead key) (e.afterHeader config packet).1 between).2) := by
  have unread : (e.afterHeader config packet).1.incoming = none := afterHeader_incoming reads
  have empty := holding_self unread
  -- the other threads leave the loop without a packet
  have left := run_holding config aead key none (e.afterHeader config packet).1 others
  rw [empty] at left
  have after := (congrArg Prod.fst left).symm
  rw [List.cons_append, Machine.run_cons, Machine.run_append]
  by_cases short : packet.length ≤ rtpHeaderLen + nonceTrailLen
  · obtain ⟨same, unheeded⟩ :
        e.packet config packet = (e, []) ∧ e.afterHeader config packet = (e, []) :=
      packet_of_short short
    rw [unheeded] at after ⊢
    have ignored : (Machine.run (step config aead key) e between).1.payload aead key =
        ((Machine.run (step config aead key) e between).1, []) := by
      rw [← after]
      exact payload_of_empty
    simp only [step, same, Machine.run_cons, Machine.run_nil, ignored, List.append_nil]
  · have looked : e.packet config packet = _ := packet_of_long reads (Nat.lt_of_not_le short)
    -- the packet waits in the receive loop until the other threads are done
    have meanwhile :=
      run_holding config aead key (some packet) (e.afterHeader config packet).1 others
    simp only [step, looked, meanwhile, Machine.run_cons, Machine.run_nil,
      payload_of_forged forged, after, List.append_nil]

end Threads

end Engine

end BufferedAudio

namespace RealtimeAudio.Receiver

variable {ρ : Type} [StreamResample ρ] {config : OutputConfig} {aead : Aead} {key : List UInt8}
variable {r : Receiver ρ} {bytes : List UInt8}

theorem openSession_of_isSome (opened : r.session.isSome = true) : r.openSession config = (r, []) :=
  if_pos opened

theorem step_of_ended (ended : r.ended = true) :
    r.step config aead key (.datagram bytes) = (r, []) := by
  simp only [step, ended, if_true]

/-- A packet that fails the check may still be the first one. -/
theorem step_forged (running : r.ended = false) (nonempty : bytes ≠ [])
    (forged : decryptRtpChacha aead key (bytes.take bufLen) = none) :
    r.step config aead key (.datagram bytes) =
      if bytes.length ≤ rtpHeaderLen + nonceTrailLen then (r, [])
      else r.openSession (normalizeOutputConfig config) := by
  -- the buffer is longer than what is skipped
  have limit : (bytes.take bufLen).length ≤ rtpHeaderLen + nonceTrailLen ↔
      bytes.length ≤ rtpHeaderLen + nonceTrailLen := by
    simp only [List.length_take, bufLen, rtpHeaderLen, nonceTrailLen]
    omega
  simp only [step, running, Bool.false_eq_true, if_false, if_neg nonempty, receive, limit, forged]

/-- With a session open, or when it is too short, a packet that fails the check is ignored. -/
theorem step_forged_ignored (nonempty : bytes ≠ [])
    (ignored : r.session.isSome = true ∨ bytes.length ≤ rtpHeaderLen + nonceTrailLen)
    (forged : decryptRtpChacha aead key (bytes.take bufLen) = none) :
    r.step config aead key (.datagram bytes) = (r, []) := by
  cases running : r.ended with
  | true => exact step_of_ended running
  | false =>
    rw [step_forged running nonempty forged]
    rcases ignored with opened | short
    · rw [openSession_of_isSome opened, ite_self]
    · exact if_pos short

end RealtimeAudio.Receiver

section Forged

variable {κ ρ : Type} [AacCodec κ] [StreamResample ρ]

/-- What a packet that fails the check does.

The buffered receiver uses the header of a packet of more than 20 bytes that names another format:
its own variables are set up for that format, which is announced to the delivery thread. Otherwise
the packet is as good as not sent, whatever the other threads do meanwhile.

The realtime receiver opens its session with a packet of more than 20 bytes if it has none, with one
call of `audio_init`. An empty datagram ends its loop. All others are ignored, and once a session is
open nothing comes of any number of them. -/
theorem forged_packet_effects (aead : Aead) (key : List UInt8) :
    (∀ (config : BufferedAudio.OutputConfig) (e : BufferedAudio.Engine κ ρ) (packet : List UInt8)
        (between : List BufferedAudio.Event), e.reads = true →
        decryptRtpChacha aead key packet = none →
        (∀ event ∈ between, event.ofReceiver = false) →
        let ssrc := BufferedAudio.ssrcOf packet
        let decoder := BufferedAudio.makeDecoder κ ssrc ssrc.sampleRate ssrc.channels
        let adopted : BufferedAudio.Engine κ ρ :=
          { e with
            receiver :=
              { decoder := decoder
                currentSsrc := ssrc
                streamResampler := StreamResample.new ssrc.sampleRate
                  (config.targetSampleRate ssrc) (config.targetChannels ssrc)
                sourceChannels := ssrc.channels
                outputChannels := config.targetChannels ssrc }
            playout :=
              { e.playout with
                sampleRate := config.targetSampleRate ssrc
                channels := config.targetChannels ssrc
                formatChanged := true } }
        let run := Machine.run (BufferedAudio.Engine.step config aead key)
        (20 < packet.length ∧ ssrc ≠ .none ∧ ssrc ≠ e.receiver.currentSsrc →
          run e (.packet packet :: between ++ [.payload]) =
            ((run adopted between).1,
              (if decoder.isNone then [.onError (BufferedAudio.Receiver.decoderError ssrc)]
                else []) ++ (run adopted between).2)) ∧
        (¬(20 < packet.length ∧ ssrc ≠ .none ∧ ssrc ≠ e.receiver.currentSsrc) →
          run e (.packet packet :: between ++ [.payload]) = run e between)) ∧
      (∀ (config : OutputConfig) (r : RealtimeAudio.Receiver ρ) (bytes : List UInt8),
        decryptRtpChacha aead key (bytes.take RealtimeAudio.bufLen) = none →
        let out := RealtimeAudio.normalizeOutputConfig config
        let rate := RealtimeAudio.targetSampleRate out
        let channels := RealtimeAudio.targetChannels out
        let step := r.step config aead key
        (r.ended = true → step (.datagram bytes) = (r, [])) ∧
        (r.ended = false → bytes = [] →
          step (.datagram bytes) = ({ r with session := none, ended := true }, [])) ∧
        (bytes ≠ [] → r.session.isSome = true ∨ bytes.length ≤ 20 →
          step (.datagram bytes) = (r, [])) ∧
        (r.ended = false → r.session = none → 20 < bytes.length →
          step (.datagram bytes) =
            ({ r with
                decoder := some ((AlacDecoder.new (BitVec.ofNat 32 out.bitDepth)
                  (BitVec.ofNat 32 out.channels)).setInfo (RealtimeAudio.alacDecoderInfo out))
                resampler :=
                  if rate ≠ out.sourceSampleRate then
                    StreamResample.new out.sourceSampleRate rate channels
                  else r.resampler
                session := some { channels := channels, sampleRate := rate }
                srcSr := out.sourceSampleRate
                srcCh := out.channels
                outCh := channels },
              [.audioInit { channels := channels, sampleRate := rate }]))) ∧
      ∀ (config : OutputConfig) (r : RealtimeAudio.Receiver ρ) (datagrams : List (List UInt8)),
        r.session.isSome = true →
        (∀ bytes ∈ datagrams, bytes ≠ [] ∧
          decryptRtpChacha aead key (bytes.take RealtimeAudio.bufLen) = none) →
        Machine.run (fun r => r.step config aead key) r (datagrams.map .datagram) = (r, []) := by
  refine ⟨?_, ?_, ?_⟩
  · intro config e packet between reads forged others ssrc decoder adopted run
    have ran := BufferedAudio.Engine.run_forged config reads forged others
    constructor
    · rintro ⟨long, named, other⟩
      have header : e.afterHeader config packet = e.changeFormat config ssrc :=
        if_pos ⟨long, by simp [BufferedAudio.Receiver.changesFormat, ssrc, named, other]⟩
      rw [header] at ran
      exact ran
    · intro same
      have header : e.afterHeader config packet = (e, []) := by
        refine if_neg fun changes => same ⟨changes.1, ?_⟩
        simpa [BufferedAudio.Receiver.changesFormat] using changes.2
      rw [header] at ran
      exact ran
  · intro config r bytes forged out rate channels step
    refine ⟨RealtimeAudio.Receiver.step_of_ended, ?_, ?_, ?_⟩
    · rintro running rfl
      simp only [step, RealtimeAudio.Receiver.step, running, Bool.false_eq_true, if_false, if_true]
      rfl
    · intro nonempty ignored
      exact RealtimeAudio.Receiver.step_forged_ignored nonempty ignored forged
    · intro running closed long
      have nonempty : bytes ≠ [] := by
        rintro rfl
        cases long
      have notShort : ¬bytes.length ≤ rtpHeaderLen + nonceTrailLen := Nat.not_le.mpr long
      have opens : ¬r.session.isSome = true := by simp [closed]
      simp only [step]
      rw [RealtimeAudio.Receiver.step_forged running nonempty forged, if_neg notShort,
        RealtimeAudio.Receiver.openSession, if_neg opens]
  · intro config r datagrams opened forged
    apply Machine.run_ignores
    intro input mem
    obtain ⟨bytes, listed, rfl⟩ := List.mem_map.mp mem
    exact RealtimeAudio.Receiver.step_forged_ignored (forged bytes listed).1 (.inl opened)
      (forged bytes listed).2

end Forged

open BufferedAudio (tagCipher noResampler pairCodec nativeOutput pairRun audioPacket ssrcOf)

/-- A packet whose tag is wrong. -/
def forgedPacket : List UInt8 := audioPacket 1 7 0x16 1

/-- A stream as SETUP describes it. -/
def stereoOutput : OutputConfig :=
  { sourceSampleRate := 44100, samplesPerFrame := 352, channels := 2, bitDepth := 16,
    sampleRate := none, maxChannels := none }

/-- It changes the stream format of the buffered receiver and makes the realtime receiver open
a session. -/
theorem forged_packet_sets_up :
    decryptRtpChacha tagCipher [] forgedPacket = none ∧
      (let e := (pairRun [.packet forgedPacket, .payload]).1
       e.receiver.currentSsrc ≠ .none ∧ e.playout.formatChanged = true) ∧
      (@RealtimeAudio.Receiver.step Unit noResampler stereoOutput
        tagCipher [] .start (.datagram forgedPacket)).2 =
          [.audioInit { channels := 2, sampleRate := 44100 }] := by
  decide +kernel

/-- The buffered receiver after a packet of the format that the forged one names. -/
def receivingAlac : BufferedAudio.Engine Unit Unit :=
  (pairRun [.packet forgedPacket, .payload]).1

def realtimeOpened : RealtimeAudio.Receiver Unit :=
  (@RealtimeAudio.Receiver.step Unit noResampler stereoOutput
    tagCipher [] .start (.datagram forgedPacket)).1

/-- The first one changes the format of a new buffered stream and opens the realtime session; a
second one changes nothing in either. An empty datagram ends the realtime loop. -/
theorem forged_packet_effects_twice :
    (let step := @BufferedAudio.Engine.step Unit Unit pairCodec
        noResampler nativeOutput tagCipher []
     let e := (run step (.start nativeOutput)
        [.packet forgedPacket, .send .stop, .payload]).1
     (e.receiver.currentSsrc = ssrcOf forgedPacket ∧
        e.playout.formatChanged = true ∧ e.session = none) ∧
     run step receivingAlac [.packet forgedPacket, .send .stop, .payload] =
        run step receivingAlac [.send .stop]) ∧
      (let step := @RealtimeAudio.Receiver.step Unit noResampler stereoOutput
        tagCipher []
       (step .start (.datagram forgedPacket)).2 =
          [.audioInit { channels := 2, sampleRate := 44100 }] ∧
       run step realtimeOpened [.datagram forgedPacket, .datagram forgedPacket] =
          (realtimeOpened, []) ∧
       step realtimeOpened (.datagram []) =
          ({ realtimeOpened with session := none, ended := true }, [])) := by
  have forged : decryptRtpChacha tagCipher [] forgedPacket = none := by
    decide +kernel
  obtain ⟨buffered, realtime, session⟩ := @forged_packet_effects Unit Unit pairCodec
    noResampler tagCipher []
  refine ⟨⟨?_, ?_⟩, ?_, ?_, ?_⟩
  · have changed := (buffered nativeOutput (.start nativeOutput)
      forgedPacket [.send .stop] rfl forged (by decide)).1 (by decide +kernel)
    simp only [List.cons_append, List.nil_append] at changed
    rw [changed]
    exact ⟨rfl, rfl, rfl⟩
  · exact (buffered nativeOutput receivingAlac forgedPacket [.send .stop]
      (by decide +kernel) forged (by decide)).2 (by decide +kernel)
  · exact congrArg Prod.snd
      ((realtime stereoOutput .start forgedPacket (by decide +kernel)).2.2.2 rfl rfl (by decide))
  · apply session stereoOutput realtimeOpened [forgedPacket, forgedPacket] (by decide +kernel)
    intro bytes mem
    have is : bytes = forgedPacket := by simpa using mem
    rw [is]
    exact ⟨by decide, by decide +kernel⟩
  · exact (realtime stereoOutput realtimeOpened [] (by decide +kernel)).2.1 (by decide +kernel) rfl

end Shairplay.Raop
