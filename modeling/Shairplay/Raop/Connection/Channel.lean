import Shairplay.Crypto.ChachaTransport.Integrity
import Shairplay.Raop.Connection

/-!
# The encrypted control channel end to end

A sender encrypts plaintexts with one context; the receiver is the intake of a
connection whose channel is active. On an honest wire, cut into reads in any way, the
receiver passes on exactly what was sent. On an arbitrary wire an ideal cipher leaves
the adversary nothing but to cut the stream off at a block boundary.
-/

namespace Shairplay.Raop

open Lib Crypto CipherContext Net

variable {lib : CryptoLib} {γ : Type} [RtspService γ]

/-- The intake of a connection whose channel has just become active. -/
def freshIntake (lib : CryptoLib) (conn : γ) (channel : EncryptedChannel) :
    Intake (RaopConnectionHandler lib γ) :=
  { handler := { conn, cipher := some channel } }

/-- A read after which decryption goes on. -/
theorem read_of_decrypt {s : Intake (RaopConnectionHandler lib γ)} {channel : EncryptedChannel}
    {decryptCtx : CipherContext} {data plain : List UInt8} {consumed : Nat}
    (going : s.failed = false) (active : s.handler.cipher = some channel)
    (room : s.rawBuf.length + data.length ≤ maxEncryptedBufferLen)
    (decrypted : channel.decryptCtx.decrypt lib.aead (s.rawBuf ++ data) =
      (decryptCtx, .ok (plain, consumed)))
    (within : consumed ≤ (s.rawBuf ++ data).length) (used : consumed = 0 → plain = []) :
    s.read data =
      { s with
        handler := { s.handler with cipher := some { channel with decryptCtx } }
        rawBuf := (s.rawBuf ++ data).drop consumed
        output := s.output ++ plain } := by
  have fits : ¬ maxEncryptedBufferLen - s.rawBuf.length < data.length := by omega
  have produced : ¬ (consumed = 0 ∧ plain ≠ []) := fun ⟨zero, produced⟩ => produced (used zero)
  have handled : ConnectionHandler.decryptIncoming s.handler (s.rawBuf ++ data) =
      ({ s.handler with cipher := some { channel with decryptCtx } }, some (plain, consumed)) := by
    simp only [ConnectionHandler.decryptIncoming, RaopConnectionHandler.decryptIncoming, active,
      decrypted, Except.toOption]
  simp only [Intake.read, going, Bool.false_eq_true, if_false, Connection.takePlaintext,
    if_neg fits, handled, if_neg (Nat.not_lt.mpr within), if_neg produced]

/-- A receiver in step with the sender: it waits for the frames `frames`, holds a piece
of the first one, and the bytes `ahead` are still to come. -/
structure InStep (s : Intake (RaopConnectionHandler lib γ)) (blocks frames : List (List UInt8))
    (final : CipherContext) (ahead : List UInt8) : Prop where
  going : s.failed = false
  active : ∃ channel, s.handler.cipher = some channel ∧
    Framed lib.aead channel.decryptCtx blocks frames final
  wire : s.rawBuf ++ ahead = frames.flatten
  bounded : s.rawBuf.length < maxFrameLen
  pieceOnly : s.rawBuf.length = frames.flatten.length → frames = []

/-- A read keeps the receiver in step and passes on the blocks that became complete. -/
theorem InStep.read {s : Intake (RaopConnectionHandler lib γ)} {blocks frames : List (List UInt8)}
    {final : CipherContext} {data ahead : List UInt8}
    (h : InStep s blocks frames final (data ++ ahead)) (size : data.length ≤ 4096) :
    ∃ done todo todoFrames, blocks = done ++ todo ∧
      (s.read data).output = s.output ++ done.flatten ∧
      InStep (s.read data) todo todoFrames final ahead := by
  obtain ⟨channel, active, framed⟩ := h.active
  have start : s.rawBuf ++ data <+: frames.flatten := by
    rw [← h.wire, ← List.append_assoc]
    exact List.prefix_append _ _
  obtain ⟨done, todo, doneFrames, todoFrames, middle, tail, rfl, rfl, first, second, received,
    piece, bound, _, ends⟩ := framed.split start
  have decrypted : channel.decryptCtx.decrypt lib.aead (s.rawBuf ++ data) =
      (middle, .ok (done.flatten, doneFrames.flatten.length)) := by
    rw [received]
    exact first.decrypt piece
  have room : s.rawBuf.length + data.length ≤ maxEncryptedBufferLen := by
    have := h.bounded
    simp only [maxFrameLen, maxBlockLen, tagLen, maxEncryptedBufferLen] at *
    omega
  have used : doneFrames.flatten.length = 0 → done.flatten = [] := by
    intro zero
    rw [(first.eq_nil (List.length_eq_zero_iff.mp zero)).1]
    rfl
  have result := read_of_decrypt h.going active room decrypted (by rw [received]; simp) used
  refine ⟨done, todo, todoFrames, rfl, by rw [result], ?_⟩
  rw [result, received, List.drop_left]
  refine ⟨h.going, ⟨_, rfl, second⟩, ?_, bound, ends⟩
  have whole := h.wire
  rw [← List.append_assoc, received, List.append_assoc, List.flatten_append] at whole
  exact List.append_cancel_left whole

theorem InStep.reads {reads : List (List UInt8)} (sizes : ∀ data ∈ reads, data.length ≤ 4096)
    {s : Intake (RaopConnectionHandler lib γ)} {blocks frames : List (List UInt8)}
    {final : CipherContext} {ahead : List UInt8}
    (h : InStep s blocks frames final (reads.flatten ++ ahead)) :
    ∃ done todo todoFrames, blocks = done ++ todo ∧
      (reads.foldl Intake.read s).output = s.output ++ done.flatten ∧
      InStep (reads.foldl Intake.read s) todo todoFrames final ahead := by
  induction reads generalizing s blocks frames with
  | nil => exact ⟨[], blocks, frames, rfl, by simp, h⟩
  | cons data reads ih =>
    rw [List.flatten_cons, List.append_assoc] at h
    obtain ⟨done, todo, todoFrames, rfl, output, after⟩ := h.read (sizes data (by simp))
    obtain ⟨done', todo', todoFrames', rfl, output', after'⟩ :=
      ih (fun d hd => sizes d (List.mem_cons_of_mem _ hd)) after
    refine ⟨done ++ done', todo', todoFrames', by simp, ?_, after'⟩
    rw [List.foldl_cons, output', output, List.flatten_append, List.append_assoc]

/-- Framing round trip: whatever one context encrypts arrives unchanged, however the wire
is cut into reads; the receiver never fails, holds less than one frame after every read,
and ends with an empty buffer and the sender's counter. -/
theorem encrypted_round_trip (inverts : lib.aead.Inverts) (key : List UInt8)
    (plaintexts : List (List UInt8)) (room : (blocksOf plaintexts).length < 2 ^ 64 - 1) (conn : γ)
    (encryptCtx : CipherContext) :
    ∃ sender wire, (CipherContext.new key).encryptAll lib.aead plaintexts = (sender, .ok wire) ∧
      ∀ reads : List (List UInt8), reads.flatten = wire →
        (∀ data ∈ reads, 1 ≤ data.length ∧ data.length ≤ 4096) →
        let start : Intake (RaopConnectionHandler lib γ) :=
          freshIntake lib conn ⟨encryptCtx, .new key⟩
        (∀ n, ((reads.take n).foldl Intake.read start).failed = false ∧
          ((reads.take n).foldl Intake.read start).rawBuf.length < maxFrameLen) ∧
        (reads.foldl Intake.read start).output = plaintexts.flatten ∧
        (reads.foldl Intake.read start).rawBuf = [] ∧
        ∃ channel, (reads.foldl Intake.read start).handler.cipher = some channel ∧
          channel.decryptCtx = sender := by
  have counter : (CipherContext.new key).counter.toNat = 0 := rfl
  have left : (CipherContext.new key).counter.toNat + (blocksOf plaintexts).length < 2 ^ 64 := by
    rw [counter]
    omega
  obtain ⟨frames, sender, encrypted, framed⟩ :=
    encryptBlocks_framed inverts (fun block mem => blocksOf_bounds mem) left
  refine ⟨sender, frames.flatten, (encryptAll_eq _ _).trans encrypted, ?_⟩
  intro reads wire sizes start
  have small : ∀ data ∈ reads, data.length ≤ 4096 := fun data mem => (sizes data mem).2
  have inStep : InStep start (blocksOf plaintexts) frames sender reads.flatten :=
    ⟨rfl, ⟨_, rfl, framed⟩, wire, (by decide : 0 < maxFrameLen),
      fun empty => (framed.eq_nil (List.length_eq_zero_iff.mp empty.symm)).2.1⟩
  refine ⟨?_, ?_⟩
  · intro n
    have cut : reads.flatten = (reads.take n).flatten ++ (reads.drop n).flatten := by
      rw [← List.flatten_append, List.take_append_drop]
    rw [cut] at inStep
    obtain ⟨_, _, _, _, _, after⟩ :=
      InStep.reads (fun d hd => small d (List.mem_of_mem_take hd)) inStep
    exact ⟨after.going, after.bounded⟩
  · rw [← List.append_nil reads.flatten] at inStep
    obtain ⟨done, todo, todoFrames, whole, output, after⟩ := InStep.reads small inStep
    -- nothing is ahead, so the piece held back is all of the remaining frames
    have held : (reads.foldl Intake.read start).rawBuf = todoFrames.flatten := by
      simpa using after.wire
    have noFrames := after.pieceOnly (by rw [held])
    obtain ⟨channel, active, rest⟩ := after.active
    obtain ⟨noBlocks, _, sameContext⟩ := rest.eq_nil (by rw [noFrames]; rfl)
    rw [noBlocks, List.append_nil] at whole
    refine ⟨?_, by rw [held, noFrames]; rfl, channel, active, sameContext.symm⟩
    rw [output, ← whole, blocksOf_flatten]
    rfl

/-- What passing through decryption means for the channel. -/
theorem takePlaintext_decrypt {h h' : RaopConnectionHandler lib γ} {channel : EncryptedChannel}
    (active : h.cipher = some channel) {rawBuf rawBuf' data plain : List UInt8}
    (taken : Connection.takePlaintext h rawBuf data = some (h', rawBuf', plain)) :
    ∃ decryptCtx consumed, channel.decryptCtx.decrypt lib.aead (rawBuf ++ data) =
        (decryptCtx, .ok (plain, consumed)) ∧
      h'.cipher = some { channel with decryptCtx } := by
  have handled : ConnectionHandler.decryptIncoming h (rawBuf ++ data) =
      ({ h with cipher := some { channel with
          decryptCtx := (channel.decryptCtx.decrypt lib.aead (rawBuf ++ data)).1 } },
        (channel.decryptCtx.decrypt lib.aead (rawBuf ++ data)).2.toOption) := by
    simp only [ConnectionHandler.decryptIncoming, RaopConnectionHandler.decryptIncoming, active]
  simp only [Connection.takePlaintext, handled] at taken
  split at taken
  · cases taken
  · cases result : channel.decryptCtx.decrypt lib.aead (rawBuf ++ data) with
    | mk decryptCtx outcome =>
      rw [result] at taken
      cases outcome with
      | error e => cases taken
      | ok decrypted =>
        obtain ⟨plain', consumed⟩ := decrypted
        simp only [Except.toOption] at taken
        split at taken
        · cases taken
        · split at taken
          · cases taken
          · cases taken
            exact ⟨decryptCtx, consumed, rfl, rfl⟩

/-- A receiver that has passed on a part of the ledger. -/
structure OnLedger (key : List UInt8) (ledger : List Sealed)
    (s : Intake (RaopConnectionHandler lib γ)) : Prop where
  output : ∃ n, s.output = (ledger.take n).flatMap Sealed.block
  active : s.failed = false → ∃ channel, s.handler.cipher = some channel ∧
    channel.decryptCtx.key = key ∧ channel.decryptCtx.counter.toNat ≤ ledger.length ∧
    s.output = (ledger.take channel.decryptCtx.counter.toNat).flatMap Sealed.block

theorem OnLedger.read {key : List UInt8} {ledger : List Sealed}
    (ideal : lib.aead.IdealFor key ledger) (numbered : Numbered ledger)
    {s : Intake (RaopConnectionHandler lib γ)} (h : OnLedger key ledger s) (data : List UInt8) :
    OnLedger key ledger (s.read data) := by
  unfold Intake.read
  split
  · exact h
  · rename_i going
    split
    · exact ⟨h.output, fun failed => absurd failed.symm Bool.false_ne_true⟩
    · rename_i handler rawBuf plain taken
      obtain ⟨channel, active, sameKey, within, output⟩ := h.active (by simpa using going)
      obtain ⟨decryptCtx, consumed, decrypted, active'⟩ := takePlaintext_decrypt active taken
      obtain ⟨keyAfter, withinAfter, whole⟩ :=
        decryptFrames_ledger ideal numbered sameKey within decrypted
      rw [← output] at whole
      exact ⟨⟨_, whole⟩, fun _ => ⟨_, active', keyAfter, withinAfter, whole⟩⟩

/-- Integrity: under an ideal cipher, whatever bytes arrive and however they are cut, the
plaintext passed to the parser is a prefix of what the peer sent that ends at a block
boundary. -/
theorem encrypted_integrity {key : List UInt8} {plaintexts : List (List UInt8)}
    {sender : CipherContext} {wire : List UInt8}
    (sent : (CipherContext.new key).encryptAll lib.aead plaintexts = (sender, .ok wire))
    (ideal : lib.aead.IdealFor key
      ((CipherContext.new key).sealedBlocks lib.aead (blocksOf plaintexts)))
    (conn : γ) (encryptCtx : CipherContext) (reads : List (List UInt8)) :
    (blocksOf plaintexts).flatten = plaintexts.flatten ∧
      ∃ n, (reads.foldl Intake.read (freshIntake lib conn
        ⟨encryptCtx, .new key⟩)).output = ((blocksOf plaintexts).take n).flatten := by
  rw [encryptAll_eq] at sent
  obtain ⟨whole, nonces⟩ := sealedBlocks_of_ok sent
  have numbered : Numbered ((CipherContext.new key).sealedBlocks lib.aead (blocksOf plaintexts)) :=
    fun i entry found => by simpa [CipherContext.new] using nonces i entry found
  have start : OnLedger key ((CipherContext.new key).sealedBlocks lib.aead (blocksOf plaintexts))
      (freshIntake lib conn ⟨encryptCtx, .new key⟩) :=
    ⟨⟨0, rfl⟩, fun _ => ⟨_, rfl, rfl, Nat.zero_le _, rfl⟩⟩
  have kept : OnLedger key ((CipherContext.new key).sealedBlocks lib.aead (blocksOf plaintexts))
      (reads.foldl Intake.read (freshIntake lib conn ⟨encryptCtx, .new key⟩)) := by
    generalize freshIntake lib conn ⟨encryptCtx, .new key⟩ = s at start
    induction reads generalizing s with
    | nil => exact start
    | cons data reads ih => exact ih _ (start.read ideal numbered data)
  obtain ⟨n, output⟩ := kept.output
  refine ⟨blocksOf_flatten plaintexts, n, ?_⟩
  rw [output, List.flatMap_def, List.map_take, whole]

/-- A service that answers everything and never pairs. -/
inductive QuietService
  | quiet

instance : RtspService QuietService where
  dispatch conn _ := (conn, (Proto.HttpResponse.new "RTSP/1.0" 200 "OK").finish none)
  requestBodyPolicy _ _ := .ok Proto.maxBodyBytes
  ap2SharedSecret _ := none

def zeroTag : List UInt8 := List.replicate tagLen 0

/-- A cipher that only appends a tag. -/
def openCipher : Aead where
  encrypt _ _ _ msg := some (msg ++ zeroTag)
  decrypt _ _ _ ct := some (ct.take (ct.length - tagLen))

theorem openCipher_inverts : openCipher.Inverts where
  open_seal _ _ _ msg _ :=
    ⟨msg ++ zeroTag, rfl, by simp [zeroTag], by simp [openCipher, zeroTag]⟩

def cipherOnly (aead : Aead) : CryptoLib where
  aead
  hkdf _ _ _ _ := none
  sha512 := ⟨fun _ => List.replicate 64 0, fun _ => by simp⟩
  ed25519 := ⟨fun _ => [], fun _ _ => [], fun _ => false, fun _ _ _ => false⟩
  x25519 := ⟨fun _ => [], fun _ _ => []⟩

def hello : List UInt8 := [0x68, 0x65, 0x6c, 0x6c, 0x6f]

def helloFrame : List UInt8 := lengthField hello ++ (hello ++ zeroTag)

/-- Two messages around an empty one, cut inside the first length field. -/
theorem encrypted_round_trip_hello :
    (CipherContext.new []).encryptAll openCipher [hello, [], hello] =
        (⟨[], 2⟩, .ok (helloFrame ++ helloFrame)) ∧
      ([helloFrame.take 1, helloFrame.drop 1 ++ helloFrame].foldl Intake.read
        (freshIntake (cipherOnly openCipher) QuietService.quiet
          ⟨.new [], .new []⟩)).output = hello ++ hello := by
  have wire : (CipherContext.new []).encryptAll openCipher [hello, [], hello] =
      (⟨[], 2⟩, .ok (helloFrame ++ helloFrame)) := by decide
  have inverts : (cipherOnly openCipher).aead.Inverts := openCipher_inverts
  obtain ⟨sender, _, sent, received⟩ := encrypted_round_trip inverts [] [hello, [], hello]
    (by decide) QuietService.quiet (.new [])
  cases wire.symm.trans sent
  exact ⟨wire, (received _ (by decide) (by decide)).2.1⟩

/-- A cipher that knows one encryption only: `hello` under counter 0. -/
def helloCipher : Aead where
  encrypt _ _ _ msg := some (msg ++ zeroTag)
  decrypt _ nonce aad ct :=
    if nonce = nonceAt 0 ∧ aad = lengthField hello ∧ ct = hello ++ zeroTag then some hello else none

/-- A replayed frame adds nothing to what was sent. -/
theorem encrypted_integrity_replay :
    ([helloFrame.take 7, helloFrame.drop 7, helloFrame].foldl Intake.read
        (freshIntake (cipherOnly helloCipher) QuietService.quiet
          ⟨.new [], .new []⟩)).output = hello ∧
      ∃ n, ([helloFrame.take 7, helloFrame.drop 7, helloFrame].foldl Intake.read
        (freshIntake (cipherOnly helloCipher) QuietService.quiet ⟨.new [], .new []⟩)).output =
        ((blocksOf [hello]).take n).flatten := by
  have sent : (CipherContext.new []).encryptAll (cipherOnly helloCipher).aead [hello] =
      (⟨[], 1⟩, .ok helloFrame) := by decide
  refine ⟨by decide +kernel, (encrypted_integrity sent ?_ QuietService.quiet (.new []) _).2⟩
  intro nonce aad ct block opened
  simp only [cipherOnly, helloCipher, Option.ite_none_right_eq_some] at opened
  obtain ⟨⟨rfl, rfl, rfl⟩, same⟩ := opened
  cases same
  decide

end Shairplay.Raop
