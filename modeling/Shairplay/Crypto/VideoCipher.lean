import Shairplay.Lib.Keystream

/-!
# The cipher of a mirroring stream

AES in counter mode, over a text that comes in packets. The cipher is only given whole
blocks: for the rest of a packet it is given a padded block, and the keystream bytes that the
padding has turned into are kept for the next packet.
-/

namespace Shairplay.Crypto

open Lib.Keystream

/-- `Ctr128BE` with its key: the block cipher, the first counter block, and the bytes of
keystream that have been used. -/
structure Ctr128BE where
  block : BitVec 128 → List UInt8
  iv : BitVec 128
  used : Nat

namespace Ctr128BE

/-- A byte of the keystream, which consists of consecutive counter blocks. -/
def keystream (c : Ctr128BE) (i : Nat) : UInt8 :=
  (c.block (c.iv + BitVec.ofNat 128 (i / 16))).getD (i % 16) 0

def applyKeystream (c : Ctr128BE) (data : List UInt8) : Ctr128BE × List UInt8 :=
  ({ c with used := c.used + data.length }, xorFrom c.keystream c.used data)

end Ctr128BE

/-- The cipher, and the keystream bytes that are left of its last block. -/
structure VideoCipher where
  cipher : Ctr128BE
  leftover : List UInt8
  leftoverCount : Nat

namespace VideoCipher

def new (block : BitVec 128 → List UInt8) (iv : BitVec 128) : VideoCipher where
  cipher := { block, iv, used := 0 }
  leftover := List.replicate 16 0
  leftoverCount := 0

/-- The whole blocks of a payload, and its rest as a padded block. -/
def decryptBlocks (c : VideoCipher) (payload : List UInt8) : VideoCipher × List UInt8 :=
  let fullLen := payload.length / 16 * 16
  let (cipher, full) := c.cipher.applyKeystream (payload.take fullLen)
  let restLen := payload.length % 16
  if 0 < restLen then
    let padded := payload.drop (payload.length - restLen) ++ List.replicate (16 - restLen) 0
    let (cipher, leftover) := cipher.applyKeystream padded
    ({ cipher, leftover, leftoverCount := 16 - restLen }, full ++ leftover.take restLen)
  else ({ c with cipher, leftoverCount := 0 }, full)

/-- Decrypt a payload. What is left of the last block is used up first. -/
def decrypt (c : VideoCipher) (payload : List UInt8) : VideoCipher × List UInt8 :=
  let n := c.leftoverCount
  if 0 < n then
    let apply := min n payload.length
    let start := 16 - n
    let front := List.zipWith (· ^^^ ·) (payload.take apply) ((c.leftover.drop start).take apply)
    if apply < n then ({ c with leftoverCount := n - apply }, front ++ payload.drop apply)
    else
      let (c, rest) := decryptBlocks { c with leftoverCount := 0 } (payload.drop apply)
      (c, front ++ rest)
  else c.decryptBlocks payload

/-- The cipher when the text has come to a position of the keystream: what is left over is the
keystream from there on, and the cipher goes on behind it. -/
structure At (ks : Nat → UInt8) (position : Nat) (c : VideoCipher) : Prop where
  stream : c.cipher.keystream = ks
  used : c.cipher.used = position + c.leftoverCount
  size : c.leftoverCount ≤ 16
  left : (c.leftover.drop (16 - c.leftoverCount)).take c.leftoverCount =
    bytesFrom ks position c.leftoverCount

variable {ks : Nat → UInt8} {p : Nat} {c : VideoCipher}

theorem at_new (block : BitVec 128 → List UInt8) (iv : BitVec 128) :
    At (new block iv).cipher.keystream 0 (new block iv) where
  stream := rfl
  used := rfl
  size := Nat.zero_le _
  left := rfl

theorem At.decryptBlocks (h : At ks p c) (none : c.leftoverCount = 0) (payload : List UInt8) :
    (c.decryptBlocks payload).2 = xorFrom ks p payload ∧
      At ks (p + payload.length) (c.decryptBlocks payload).1 := by
  have used : c.cipher.used = p := by rw [h.used, none, Nat.add_zero]
  have sizes := Nat.div_add_mod' payload.length 16
  have fullLen : (payload.take (payload.length / 16 * 16)).length = payload.length / 16 * 16 := by
    rw [List.length_take]
    omega
  have whole := xorFrom_append ks p (payload.take (payload.length / 16 * 16))
    (payload.drop (payload.length / 16 * 16))
  rw [List.take_append_drop, fullLen] at whole
  simp only [VideoCipher.decryptBlocks, Ctr128BE.applyKeystream, h.stream, used, fullLen]
  split
  · rename_i rest
    have tail : payload.length - payload.length % 16 = payload.length / 16 * 16 := by omega
    have tailLen : (payload.drop (payload.length / 16 * 16)).length = payload.length % 16 := by
      rw [List.length_drop]
      omega
    rw [tail, whole]
    have stream : Ctr128BE.keystream { c.cipher with used := p + payload.length / 16 * 16 } = ks :=
      h.stream
    simp only [stream]
    rw [xorFrom_append, xorFrom_zeros, tailLen]
    refine ⟨?_, ⟨h.stream, ?_, Nat.sub_le _ _, ?_⟩⟩
    · rw [List.take_left' (by rw [length_xorFrom, tailLen])]
    · simp only [List.length_append, tailLen, List.length_replicate]
      omega
    · have front : (xorFrom ks (p + payload.length / 16 * 16)
          (payload.drop (payload.length / 16 * 16))).length = 16 - (16 - payload.length % 16) := by
        rw [length_xorFrom, tailLen]
        omega
      rw [List.drop_left' front, List.take_of_length_le (Nat.le_of_eq (length_bytesFrom ..)),
        Nat.add_assoc, sizes]
  · rename_i rest
    have all : payload.length / 16 * 16 = payload.length := by omega
    rw [all, List.take_length]
    exact ⟨rfl, ⟨h.stream, rfl, Nat.zero_le _, rfl⟩⟩

section Leftover

variable {n : Nat}

/-- The first bytes that are left over are the next of the keystream. -/
theorem At.take_leftover (h : At ks p c) (fewer : n ≤ c.leftoverCount) :
    (c.leftover.drop (16 - c.leftoverCount)).take n = bytesFrom ks p n := by
  rw [← take_bytesFrom ks p fewer, ← h.left, List.take_take, Nat.min_eq_left fewer]

/-- They are used up from the front. -/
theorem At.advance (h : At ks p c) (fewer : n ≤ c.leftoverCount) :
    At ks (p + n) { c with leftoverCount := c.leftoverCount - n } where
  stream := h.stream
  used := by
    show c.cipher.used = p + n + (c.leftoverCount - n)
    rw [h.used]
    omega
  size := Nat.le_trans (Nat.sub_le _ _) h.size
  left := by
    have start : 16 - (c.leftoverCount - n) = 16 - c.leftoverCount + n := by
      have := h.size
      omega
    show (c.leftover.drop (16 - (c.leftoverCount - n))).take (c.leftoverCount - n) = _
    rw [start, ← drop_bytesFrom ks p fewer, ← h.left, List.drop_take, List.drop_drop]

end Leftover

/-- A payload is decrypted with the keystream from the position on, and moves it by its
length. -/
theorem At.decrypt (h : At ks p c) (payload : List UInt8) :
    (c.decrypt payload).2 = xorFrom ks p payload ∧
      At ks (p + payload.length) (c.decrypt payload).1 := by
  simp only [VideoCipher.decrypt]
  split
  · have front := zipWith_xor_bytesFrom ks p (payload.take (min c.leftoverCount payload.length))
    rw [List.length_take, Nat.min_assoc, Nat.min_self,
      ← h.take_leftover (Nat.min_le_left ..)] at front
    rw [front]
    split
    · rename_i short
      have all : min c.leftoverCount payload.length = payload.length := by omega
      rw [all, List.take_length, List.drop_length, List.append_nil]
      exact ⟨rfl, h.advance (by omega)⟩
    · rename_i long
      have all : min c.leftoverCount payload.length = c.leftoverCount := by omega
      have behind := h.advance (Nat.le_refl c.leftoverCount)
      rw [Nat.sub_self] at behind
      obtain ⟨rest, final⟩ := behind.decryptBlocks rfl (payload.drop c.leftoverCount)
      have inside : c.leftoverCount ≤ payload.length := by omega
      rw [all]
      refine ⟨?_, ?_⟩
      · have whole := xorFrom_append ks p (payload.take c.leftoverCount)
          (payload.drop c.leftoverCount)
        rw [List.take_append_drop, List.length_take, Nat.min_eq_left inside, ← rest] at whole
        exact whole.symm
      · rw [List.length_drop, Nat.add_assoc, Nat.add_sub_cancel' inside] at final
        exact final
  · rename_i none
    exact h.decryptBlocks (Nat.eq_zero_of_not_pos none) payload

end VideoCipher

end Shairplay.Crypto
