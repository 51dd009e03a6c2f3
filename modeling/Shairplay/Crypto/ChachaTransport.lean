import Shairplay.Crypto.Primitives
import Shairplay.Lib.Bytes
import Shairplay.Lib.Segment
import Shairplay.Lib.Utf8

/-!
# The encrypted RTSP transport

After pairing the control channel carries frames: a 16-bit little-endian block length,
the ciphertext and its tag. The length is authenticated as associated data, a block has
at most 1024 bytes, and each direction counts its blocks for the nonce.
-/

namespace Shairplay.Crypto

open Lib

def maxBlockLen : Nat := 0x400

def tagLen : Nat := 16

/-- One direction of the channel. -/
structure CipherContext where
  key : List UInt8
  counter : UInt64
  deriving DecidableEq

/-- `u64::MAX`, which the counter must not use up. -/
def counterLimit : UInt64 := 0xffffffffffffffff

def lengthField (block : List UInt8) : List UInt8 := Bytes.leBytes 2 block.length

namespace CipherContext

/-- A fresh context. -/
def new (key : List UInt8) : CipherContext := ⟨key, 0⟩

/-- Four zero bytes and the counter. -/
def nonce (ctx : CipherContext) : List UInt8 :=
  [0, 0, 0, 0] ++ Bytes.leBytes 8 ctx.counter.toNat

variable (aead : Aead)

/-- Encrypt blocks one after the other. Blocks before a failure have used up their
counter, although their frames are not returned. -/
def encryptBlocks : CipherContext → List (List UInt8) →
    CipherContext × Except CryptoError (List UInt8)
  | ctx, [] => (ctx, .ok [])
  | ctx, block :: blocks =>
    if ctx.counter = counterLimit then
      (ctx, .error (.transport "nonce counter exhausted before encryption"))
    else
      match aead.encrypt ctx.key ctx.nonce (lengthField block) block with
      | none => (ctx, .error (.transport "ChaCha20 encrypt failed"))
      | some ct =>
        match encryptBlocks { ctx with counter := ctx.counter + 1 } blocks with
        | (ctx, .error e) => (ctx, .error e)
        | (ctx, .ok frames) => (ctx, .ok (lengthField block ++ ct ++ frames))

def encrypt (ctx : CipherContext) (plaintext : List UInt8) :
    CipherContext × Except CryptoError (List UInt8) :=
  ctx.encryptBlocks aead (Segment.chunks maxBlockLen plaintext)

/-- Length of the frame at the start of the data, from its length field. -/
def frameLen (data : List UInt8) : Nat := 2 + Bytes.leNat (data.take 2) + tagLen

/-- Decrypt complete frames from the start of the data: the plaintext and the bytes
consumed. A frame has at least 18 bytes, so the length of the data bounds the number of
rounds. -/
def decryptFrames : Nat → CipherContext → List UInt8 →
    CipherContext × Except CryptoError (List UInt8 × Nat)
  | 0, ctx, _ => (ctx, .ok ([], 0))
  | fuel + 1, ctx, data =>
    -- an incomplete length field or block waits for more bytes
    if data.length < 2 ∨ data.length < frameLen data then (ctx, .ok ([], 0))
    else if ctx.counter = counterLimit then
      (ctx, .error (.transport "nonce counter exhausted before decryption"))
    else if Bytes.leNat (data.take 2) = 0 then
      (ctx, .error (.transport "invalid framed block length: 0"))
    else
      match aead.decrypt ctx.key ctx.nonce (data.take 2)
          ((data.drop 2).take (Bytes.leNat (data.take 2) + tagLen)) with
      | none => (ctx, .error (.transport "ChaCha20 decrypt failed"))
      | some block =>
        match decryptFrames fuel { ctx with counter := ctx.counter + 1 }
            (data.drop (frameLen data)) with
        | (ctx, .error e) => (ctx, .error e)
        | (ctx, .ok (plain, consumed)) =>
          (ctx, .ok (block ++ plain, frameLen data + consumed))

/-- Decrypt framed blocks; an incomplete last frame is not consumed. -/
def decrypt (ctx : CipherContext) (ciphertext : List UInt8) :
    CipherContext × Except CryptoError (List UInt8 × Nat) :=
  ctx.decryptFrames aead ciphertext.length ciphertext

end CipherContext

def controlSalt : String := "Control-Salt"
def controlReadKeyInfo : String := "Control-Read-Encryption-Key"
def controlWriteKeyInfo : String := "Control-Write-Encryption-Key"
def eventsSalt : String := "Events-Salt"
def eventsReadKeyInfo : String := "Events-Read-Encryption-Key"
def eventsWriteKeyInfo : String := "Events-Write-Encryption-Key"

/-- Both directions of an encrypted channel. -/
structure EncryptedChannel where
  encryptCtx : CipherContext
  decryptCtx : CipherContext
  deriving DecidableEq

namespace EncryptedChannel

/-- Derive the two keys of a channel from a shared secret. -/
def new (hkdf : Hkdf) (sharedSecret : List UInt8) (writeSalt writeInfo readSalt readInfo : String) :
    Except CryptoError EncryptedChannel := do
  let writeKey ← match hkdf (Utf8.encode writeSalt) sharedSecret (Utf8.encode writeInfo) 32 with
    | some key => .ok key
    | none => .error (.transport "HKDF write key failed")
  let readKey ← match hkdf (Utf8.encode readSalt) sharedSecret (Utf8.encode readInfo) 32 with
    | some key => .ok key
    | none => .error (.transport "HKDF read key failed")
  .ok ⟨.new writeKey, .new readKey⟩

/-- The channel of the other side: it reads with what this side writes with. -/
theorem new_swap {hkdf : Hkdf} {sharedSecret : List UInt8}
    {writeSalt writeInfo readSalt readInfo : String} {channel : EncryptedChannel}
    (made : new hkdf sharedSecret writeSalt writeInfo readSalt readInfo = .ok channel) :
    new hkdf sharedSecret readSalt readInfo writeSalt writeInfo =
      .ok ⟨channel.decryptCtx, channel.encryptCtx⟩ := by
  rw [new] at made ⊢
  cases write : hkdf (Utf8.encode writeSalt) sharedSecret (Utf8.encode writeInfo) 32 with
  | none =>
    rw [write] at made
    cases made
  | some writeKey =>
    cases read : hkdf (Utf8.encode readSalt) sharedSecret (Utf8.encode readInfo) 32 with
    | none =>
      rw [write, read] at made
      cases made
    | some readKey =>
      rw [write, read] at made
      cases made
      rfl

/-- The control channel of the server: it writes with the peer's read key. -/
def control (hkdf : Hkdf) (sharedSecret : List UInt8) : Except CryptoError EncryptedChannel :=
  new hkdf sharedSecret controlSalt controlReadKeyInfo controlSalt controlWriteKeyInfo

def events (hkdf : Hkdf) (sharedSecret : List UInt8) : Except CryptoError EncryptedChannel :=
  new hkdf sharedSecret eventsSalt eventsWriteKeyInfo eventsSalt eventsReadKeyInfo

end EncryptedChannel

end Shairplay.Crypto
