import Shairplay.Crypto.ChachaTransport.Frames
import Shairplay.Raop.Connection.Channel
import Shairplay.Lib.Machine

/-!
# The event channel

After the initial SETUP the client connects once more, and this connection carries encrypted
messages of the server. One task serves it: it reads what the client sends, and writes the
messages that were queued. Each input below is one iteration of its loop, so runs are
interleavings of both.

Whatever the client sends, it can decrypt exactly the queued messages, in order. What it sends
is kept only until its frame is complete, so that the limit of the source on these bytes is
never reached.
-/

namespace Shairplay.Raop

open Lib Machine Crypto CipherContext

def maxEncryptedEventBufferLen : Nat := 1024 * 1024

/-- Size of the buffer that the task reads into. -/
def eventReadLen : Nat := 4096

/-- Why the task ended. -/
inductive EventEnd
  | closed
  | overLimit
  | decryptError
  | readError
  | encryptError
  | writeError
  deriving DecidableEq

structure EventChannel where
  channel : EncryptedChannel
  encryptedBuf : List UInt8
  ended : Option EventEnd

/-- What an iteration waits for. -/
inductive EventInput
  /-- The bytes of a read; none at the end of the stream. -/
  | read (bytes : List UInt8)
  | readError
  /-- A queued message, and the number of its encrypted bytes that the stream takes. -/
  | command (data : List UInt8) (taken : Nat)

namespace EventChannel

/-- The task when the client has connected. -/
def start (channel : EncryptedChannel) : EventChannel := ⟨channel, [], none⟩

variable (aead : Aead)

/-- Collect the bytes of a read and decrypt the complete frames. Their plaintext is dropped. -/
def readBytes (s : EventChannel) (bytes : List UInt8) : EventChannel :=
  let encryptedBuf := s.encryptedBuf ++ bytes
  if maxEncryptedEventBufferLen < encryptedBuf.length then
    { s with encryptedBuf, ended := some .overLimit }
  else
    match s.channel.decryptCtx.decrypt aead encryptedBuf with
    | (decryptCtx, .ok (_, consumed)) =>
      { s with channel := { s.channel with decryptCtx }
               encryptedBuf := encryptedBuf.drop consumed }
    | (decryptCtx, .error _) =>
      { channel := { s.channel with decryptCtx }, encryptedBuf, ended := some .decryptError }

/-- Encrypt and write a message. -/
def send (s : EventChannel) (data : List UInt8) (taken : Nat) : EventChannel × List UInt8 :=
  match s.channel.encryptCtx.encrypt aead data with
  | (encryptCtx, .error _) =>
    ({ s with channel := { s.channel with encryptCtx }, ended := some .encryptError }, [])
  | (encryptCtx, .ok encrypted) =>
    let s := { s with channel := { s.channel with encryptCtx } }
    if taken < encrypted.length then ({ s with ended := some .writeError }, encrypted.take taken)
    else (s, encrypted)

/-- One iteration, and the bytes it writes; a task that has ended does nothing. -/
def step (s : EventChannel) (input : EventInput) : EventChannel × List UInt8 :=
  if s.ended.isSome then (s, [])
  else
    match input with
    | .read bytes =>
      if bytes = [] then ({ s with ended := some .closed }, []) else (s.readBytes aead bytes, [])
    | .readError => ({ s with ended := some .readError }, [])
    | .command data taken => s.send aead data taken

variable {aead}

theorem step_of_ended {s : EventChannel} (ended : s.ended ≠ none) (input : EventInput) :
    s.step aead input = (s, []) :=
  if_pos (Option.isSome_iff_ne_none.mpr ended)

theorem run_of_ended {s : EventChannel} (ended : s.ended ≠ none) (inputs : List EventInput) :
    run (step aead) s inputs = (s, []) :=
  run_ignores fun input _ => step_of_ended ended input

def messages : List EventInput → List (List UInt8)
  | [] => []
  | .command data _ :: inputs => data :: messages inputs
  | _ :: inputs => messages inputs

/-- A read leaves the counter of the other direction alone. -/
theorem encryptCtx_readBytes (s : EventChannel) (bytes : List UInt8) :
    (s.readBytes aead bytes).channel.encryptCtx = s.channel.encryptCtx := by
  rw [readBytes]
  split
  · rfl
  · split <;> rfl

/-- Anything but a message writes nothing. -/
theorem step_quiet (aead : Aead) (s : EventChannel) {input : EventInput}
    (other : messages [input] = []) :
    (s.step aead input).2 = [] ∧
      (s.step aead input).1.channel.encryptCtx = s.channel.encryptCtx := by
  by_cases ended : s.ended = none
  · have runs : ¬ s.ended.isSome = true := by simp [ended]
    cases input with
    | read bytes =>
      rw [step, if_neg runs]
      split
      · exact ⟨rfl, rfl⟩
      · exact ⟨rfl, encryptCtx_readBytes s bytes⟩
    | readError => rw [step, if_neg runs]; exact ⟨rfl, rfl⟩
    | command data taken => cases other
  · rw [step_of_ended ended]
    exact ⟨rfl, rfl⟩

/-- The frames of what was written: the wire is the start of them, and while the task goes on it
is all of them, and they hold all of the data. -/
structure Sent (aead : Aead) (ctx : CipherContext) (data : List UInt8)
    (after : EventChannel × List UInt8) (blocks frames : List (List UInt8))
    (final : CipherContext) : Prop where
  framed : Framed aead ctx blocks frames final
  written : after.2 <+: frames.flatten
  held : blocks.flatten <+: data
  complete : after.1.ended = none →
    final = after.1.channel.encryptCtx ∧ after.2 = frames.flatten ∧ blocks.flatten = data

/-- A task that has ended without a byte. -/
theorem sent_nothing {ctx : CipherContext} {data : List UInt8} {s : EventChannel}
    (ended : s.ended ≠ none) : Sent aead ctx data (s, []) [] [] ctx :=
  ⟨.nil, List.nil_prefix, List.nil_prefix, fun live => absurd live ended⟩

theorem send_sent (inverts : aead.Inverts) (s : EventChannel) (data : List UInt8) (taken : Nat) :
    ∃ blocks frames final,
      Sent aead s.channel.encryptCtx data (s.send aead data taken) blocks frames final := by
  rw [send]
  split
  · exact ⟨[], [], _, sent_nothing (Option.some_ne_none _)⟩
  · next ctx encrypted encrypts =>
      obtain ⟨frames, rfl, framed⟩ := framed_of_encryptBlocks inverts
        (fun _ mem => Segment.chunks_bounds (by decide) mem) encrypts
      have all : (Segment.chunks maxBlockLen data).flatten = data :=
        Segment.chunks_flatten (by decide) data
      have held : (Segment.chunks maxBlockLen data).flatten <+: data := by
        rw [all]
      refine ⟨_, frames, ctx, framed, ?_, held, ?_⟩
      · split
        · exact List.take_prefix taken _
        · exact List.prefix_refl _
      · intro live
        split at live
        · cases live
        · next takes =>
            rw [if_neg takes]
            exact ⟨rfl, rfl, all⟩

theorem run_sent (inverts : aead.Inverts) (s : EventChannel) (inputs : List EventInput) :
    ∃ blocks frames final, Sent aead s.channel.encryptCtx (messages inputs).flatten
      (run (step aead) s inputs) blocks frames final := by
  induction inputs generalizing s with
  | nil => exact ⟨[], [], _, .nil, List.nil_prefix, List.nil_prefix, fun _ => ⟨rfl, rfl, rfl⟩⟩
  | cons input inputs ih =>
    by_cases ended : s.ended = none
    · obtain ⟨blocks, frames, final, rest⟩ := ih (s.step aead input).1
      have quiet (other : messages [input] = []) (same : messages (input :: inputs) =
          messages inputs) : ∃ blocks frames final, Sent aead s.channel.encryptCtx
            (messages (input :: inputs)).flatten (run (step aead) s (input :: inputs)) blocks
              frames final := by
        obtain ⟨silent, ctx⟩ := step_quiet aead s other
        rw [ctx] at rest
        rw [run_cons, silent, same]
        exact ⟨blocks, frames, final, rest⟩
      cases input with
      | read bytes => exact quiet rfl rfl
      | readError => exact quiet rfl rfl
      | command data taken =>
        have sends : s.step aead (.command data taken) = s.send aead data taken :=
          if_neg (by simp [ended])
        obtain ⟨blocks₁, frames₁, middle, first⟩ := send_sent inverts s data taken
        rw [sends] at rest
        rw [run_cons, sends, messages, List.flatten_cons]
        by_cases live : (s.send aead data taken).1.ended = none
        · obtain ⟨rfl, wire, all⟩ := first.complete live
          rw [wire]
          refine ⟨blocks₁ ++ blocks, frames₁ ++ frames, final, first.framed.append rest.framed,
            ?_, ?_, ?_⟩
          · rw [List.flatten_append]
            exact (List.prefix_append_right_inj _).mpr rest.written
          · rw [List.flatten_append, all]
            exact (List.prefix_append_right_inj _).mpr rest.held
          · intro goes
            obtain ⟨last, wire, all'⟩ := rest.complete goes
            exact ⟨last, by rw [List.flatten_append, ← wire],
              by rw [List.flatten_append, all, all']⟩
        · -- nothing follows a message that was not written completely
          rw [run_of_ended live, List.append_nil]
          exact ⟨blocks₁, frames₁, middle, first.framed, first.written,
            first.held.trans (List.prefix_append _ _), fun goes => absurd goes live⟩
    · rw [run_of_ended ended]
      exact ⟨[], [], _, sent_nothing ended⟩

def clientChannel (hkdf : Hkdf) (secret : List UInt8) : Except CryptoError EncryptedChannel :=
  EncryptedChannel.new hkdf secret eventsSalt eventsReadKeyInfo eventsSalt eventsWriteKeyInfo

/-- The client decrypts, from whatever part of the wire has arrived, a start of the messages that
were queued, in their order; from everything that a task that goes on has written, all of them. The
bytes that the client itself sends, and when they arrive, make no difference. -/
theorem messages_arrive {hkdf : Hkdf} {secret : List UInt8} {server client : EncryptedChannel}
    (inverts : aead.Inverts) (serves : EncryptedChannel.events hkdf secret = .ok server)
    (connects : clientChannel hkdf secret = .ok client) (inputs : List EventInput) :
    (∀ received, received <+: (run (step aead) (start server) inputs).2 →
      ∃ final plain consumed,
        client.decryptCtx.decrypt aead received = (final, .ok (plain, consumed)) ∧
          plain <+: (messages inputs).flatten) ∧
    ((run (step aead) (start server) inputs).1.ended = none →
      ∃ final, client.decryptCtx.decrypt aead (run (step aead) (start server) inputs).2 =
        (final, .ok ((messages inputs).flatten,
          (run (step aead) (start server) inputs).2.length))) := by
  cases (EncryptedChannel.new_swap serves).symm.trans connects
  obtain ⟨blocks, frames, final, sent⟩ := run_sent inverts (start server) inputs
  constructor
  · intro received part
    obtain ⟨done, todo, doneFrames, todoFrames, middle, tail, rfl, rfl, first, -, rfl, piece, -⟩ :=
      sent.framed.split (part.trans sent.written)
    refine ⟨middle, done.flatten, doneFrames.flatten.length, first.decrypt piece, ?_⟩
    have held := sent.held
    rw [List.flatten_append] at held
    exact (List.prefix_append _ _).trans held
  · intro live
    obtain ⟨-, wire, all⟩ := sent.complete live
    have piece : Incomplete [] := .inl (by decide)
    have whole := sent.framed.decrypt piece
    rw [List.append_nil] at whole
    rw [wire, ← all]
    exact ⟨final, whole⟩

/-- Between two messages the client sends a piece of a frame. -/
theorem messages_arrive_hello :
    (run (step openCipher) (start ⟨.new [], .new []⟩)
        [.command hello 100, .read [5], .command hello 100]).2 = helloFrame ++ helloFrame ∧
      ∃ final, (CipherContext.new []).decrypt openCipher (helloFrame ++ helloFrame) =
        (final, .ok (hello ++ hello, 46)) := by
  have arrive := @messages_arrive openCipher (fun _ _ _ _ => some []) [] ⟨.new [], .new []⟩
    ⟨.new [], .new []⟩ openCipher_inverts rfl rfl
    [.command hello 100, .read [5], .command hello 100]
  have wire : (run (step openCipher) (start ⟨.new [], .new []⟩)
      [.command hello 100, .read [5], .command hello 100]).2 = helloFrame ++ helloFrame := by
    decide +kernel
  rw [wire] at arrive
  exact ⟨wire, arrive.2 (by decide +kernel)⟩

/-- Bytes of a frame that waits for its end. -/
def pieceLen : Nat := 2 + 65535 + tagLen

theorem length_lt_of_incomplete {tail : List UInt8} (piece : Incomplete tail) :
    tail.length < pieceLen := by
  have field := Bytes.leNat_lt (tail.take 2)
  have short : 256 ^ (tail.take 2).length ≤ 256 ^ 2 :=
    Nat.pow_le_pow_right (by decide) (by simp)
  rcases piece with piece | piece
  · simp only [pieceLen, tagLen]
    omega
  · simp only [frameLen, pieceLen, tagLen] at piece ⊢
    omega

/-- What is kept behind the complete frames is a piece of the next one. -/
theorem drop_consumed {ctx final : CipherContext} {data plain : List UInt8} {consumed : Nat}
    (opened : ctx.decrypt aead data = (final, .ok (plain, consumed))) :
    Incomplete (data.drop consumed) := by
  cases blocks : ctx.blocksIn aead data with
  | none =>
    obtain ⟨final', e, fails⟩ := decrypt_of_blocksIn_none blocks
    cases fails.symm.trans opened
  | some result =>
    cases (decrypt_of_blocksIn blocks).symm.trans opened
    rw [← List.suffix_iff_eq_drop.mp (waiting_suffix data)]
    exact waiting_incomplete data

/-- While the task goes on, its buffer is a piece of a frame. A buffer that could not be decrypted
has one more read behind the piece. -/
structure Bounded (s : EventChannel) : Prop where
  piece : s.ended = none → Incomplete s.encryptedBuf
  length : s.encryptedBuf.length < pieceLen + eventReadLen
  within : s.ended ≠ some .overLimit

theorem Bounded.readBytes {s : EventChannel} (bounded : s.Bounded) (live : s.ended = none)
    {bytes : List UInt8} (read : bytes.length ≤ eventReadLen) :
    (s.readBytes aead bytes).Bounded := by
  have before := length_lt_of_incomplete (bounded.piece live)
  have total : (s.encryptedBuf ++ bytes).length < pieceLen + eventReadLen := by
    rw [List.length_append]
    omega
  have below : ¬ maxEncryptedEventBufferLen < (s.encryptedBuf ++ bytes).length := by
    have limit : pieceLen + eventReadLen ≤ maxEncryptedEventBufferLen := by decide
    omega
  rw [EventChannel.readBytes, if_neg below]
  split
  · next opened =>
      have piece := drop_consumed opened
      refine ⟨fun _ => piece, ?_, bounded.within⟩
      exact Nat.lt_add_right _ (length_lt_of_incomplete piece)
  · exact ⟨by simp, total, by simp⟩

/-- A message leaves the buffer alone. -/
theorem Bounded.send {s : EventChannel} (bounded : s.Bounded) (data : List UInt8) (taken : Nat) :
    (s.send aead data taken).1.Bounded := by
  rw [EventChannel.send]
  split
  · exact ⟨by simp, bounded.length, by simp⟩
  · dsimp only
    split
    · exact ⟨by simp, bounded.length, by simp⟩
    · exact ⟨bounded.piece, bounded.length, bounded.within⟩

theorem Bounded.step {s : EventChannel} (bounded : s.Bounded) {input : EventInput}
    (reads : ∀ bytes, input = .read bytes → bytes.length ≤ eventReadLen) :
    (s.step aead input).1.Bounded := by
  by_cases live : s.ended = none
  · have runs : ¬ s.ended.isSome = true := by simp [live]
    cases input with
    | read bytes =>
      rw [EventChannel.step, if_neg runs]
      split
      · exact ⟨by simp, bounded.length, by simp⟩
      · exact bounded.readBytes live (reads bytes rfl)
    | readError =>
      rw [EventChannel.step, if_neg runs]
      exact ⟨by simp, bounded.length, by simp⟩
    | command data taken =>
      rw [EventChannel.step, if_neg runs]
      exact bounded.send data taken
  · rw [step_of_ended live]
    exact bounded

/-- Reads of the size of the task's buffer never exceed the limit on what it keeps: that check
never ends the task, and the buffer stays below a tenth of the limit. -/
theorem limit_unreachable (aead : Aead) (server : EncryptedChannel) (inputs : List EventInput)
    (reads : ∀ bytes, .read bytes ∈ inputs → bytes.length ≤ eventReadLen) :
    (run (step aead) (start server) inputs).1.ended ≠ some .overLimit ∧
      10 * (run (step aead) (start server) inputs).1.encryptedBuf.length <
        maxEncryptedEventBufferLen := by
  have fresh : (start server).Bounded :=
    ⟨fun _ => .inl Nat.two_pos, Nat.zero_lt_succ _, by simp [start]⟩
  have each : ∀ input ∈ inputs, ∀ bytes, input = .read bytes → bytes.length ≤ eventReadLen :=
    fun _ mem bytes same => reads bytes (same ▸ mem)
  have bounded : (run (step aead) (start server) inputs).1.Bounded :=
    Always.run_keeps (fun _ _ bounded fits => bounded.step fits) fresh (always_of_forall each)
  refine ⟨bounded.within, ?_⟩
  have length := bounded.length
  simp only [pieceLen, tagLen, eventReadLen, maxEncryptedEventBufferLen] at length ⊢
  omega

/-- A length field that announces more than is sent. -/
theorem limit_unreachable_piece :
    (run (step openCipher) (start ⟨.new [], .new []⟩)
        [.read [255, 255], .read hello]).1.encryptedBuf = [255, 255] ++ hello ∧
      (run (step openCipher) (start ⟨.new [], .new []⟩)
        [.read [255, 255], .read hello]).1.ended ≠ some .overLimit := by
  refine ⟨by decide +kernel, (limit_unreachable openCipher _ _ ?_).1⟩
  intro bytes mem
  simp only [List.mem_cons, EventInput.read.injEq, List.not_mem_nil, or_false] at mem
  rcases mem with rfl | rfl <;> decide

end EventChannel

end Shairplay.Raop
