import Shairplay.Lib.Bytes
import Shairplay.Lib.Keystream

/-!
# AES in counter mode, by hand

The block cipher turns consecutive values of a 128-bit counter into a keystream. The counter
is kept as bytes and stepped with a carry from the last byte on; a block that has only been
used in part is kept for the next call.
-/

namespace Shairplay.Crypto

open Lib.Bytes Lib.Keystream

abbrev Block := { bytes : List UInt8 // bytes.length = 16 }

namespace Block

/-- The big-endian number of a block. -/
def value (b : Block) : BitVec 128 := BitVec.ofNat 128 (leNat b.1.reverse)

/-- The block of a big-endian number. -/
def ofValue (n : BitVec 128) : Block :=
  ⟨(leBytes 16 n.toNat).reverse, (List.length_reverse ..).trans (length_leBytes 16 n.toNat)⟩

theorem toNat_value (b : Block) : b.value.toNat = leNat b.1.reverse := by
  have small := leNat_lt b.1.reverse
  rw [List.length_reverse, b.2] at small
  rw [value, BitVec.toNat_ofNat, Nat.mod_eq_of_lt]
  exact lt_of_lt_of_eq small (by norm_num)

theorem ofValue_value (b : Block) : ofValue b.value = b := by
  have same := leBytes_leNat b.1.reverse
  rw [List.length_reverse, b.2] at same
  apply Subtype.ext
  show (leBytes 16 b.value.toNat).reverse = b.1
  rw [toNat_value, same, List.reverse_reverse]

end Block

/-- The cipher under its key, the counter, the block in use and how many of its bytes have not
been used. -/
structure AesCtr where
  cipher : Block → Block
  counter : Block
  state : Block
  available : Nat

namespace AesCtr

def new (cipher : Block → Block) (nonce : Block) : AesCtr where
  cipher := cipher
  counter := nonce
  state := ⟨List.replicate 16 0, List.length_replicate ..⟩
  available := 0

/-- Add a carry into bytes, the lowest of which comes first. -/
def addCarry : (carry : UInt16) → List UInt8 → List UInt8
  | _, [] => []
  | carry, b :: bytes =>
    let sum := carry + b.toUInt16
    sum.toUInt8 :: addCarry (sum >>> 8) bytes

theorem length_addCarry (carry : UInt16) (bytes : List UInt8) :
    (addCarry carry bytes).length = bytes.length := by
  induction bytes generalizing carry with
  | nil => rfl
  | cons b bytes ih => rw [addCarry, List.length_cons, ih, List.length_cons]

/-- The counter plus one, from the last byte to the first. -/
def incCounter (c : AesCtr) : AesCtr :=
  { c with
    counter := ⟨(addCarry 1 c.counter.1.reverse).reverse, (List.length_reverse ..).trans
      ((length_addCarry ..).trans ((List.length_reverse ..).trans c.counter.2))⟩ }

/-- The state with bytes to use: a new block if the last one is used up. -/
def refill (c : AesCtr) : AesCtr :=
  if c.available = 0 then
    incCounter { c with state := c.cipher c.counter, available := 16 }
  else c

theorem available_refill_pos (c : AesCtr) : 0 < c.refill.available := by
  unfold refill
  split
  · exact Nat.succ_pos 15
  · rename_i some
    exact Nat.pos_of_ne_zero some

/-- Encrypt or decrypt data, as much of it at a time as the block in use allows. -/
def encrypt (c : AesCtr) (data : List UInt8) : AesCtr × List UInt8 :=
  if data = [] then (c, [])
  else
    let ready := c.refill
    let offset := 16 - ready.available
    let n := min ready.available data.length
    let front := List.zipWith (· ^^^ ·) (data.take n) ((ready.state.1.drop offset).take n)
    let (final, rest) := encrypt { ready with available := ready.available - n } (data.drop n)
    (final, front ++ rest)
termination_by data.length
decreasing_by
  rename_i some
  have := c.available_refill_pos
  have := List.length_pos_iff.mpr some
  rw [List.length_drop]
  omega

/-- The carry into a byte is at most one, so a sum never exceeds 256. -/
theorem leNat_addCarry {carry : UInt16} (small : carry.toNat ≤ 1) (bytes : List UInt8) :
    leNat (addCarry carry bytes) = (leNat bytes + carry.toNat) % 256 ^ bytes.length := by
  induction bytes generalizing carry with
  | nil => rw [addCarry, leNat, List.length_nil, pow_zero, Nat.mod_one]
  | cons b bytes ih =>
    have byte := b.toNat_lt
    have sum : (carry + b.toUInt16).toNat = carry.toNat + b.toNat := by
      rw [UInt16.toNat_add, UInt8.toNat_toUInt16]
      omega
    have shifted : ((carry + b.toUInt16) >>> 8).toNat = (carry.toNat + b.toNat) / 256 := by
      rw [UInt16.toNat_shiftRight, sum]
      exact Nat.shiftRight_eq_div_pow _ 8
    have next : ((carry + b.toUInt16) >>> 8).toNat ≤ 1 := by omega
    have low : (b.toNat + 256 * leNat bytes + carry.toNat) % 256 =
        (carry.toNat + b.toNat) % 256 := by omega
    have high : (b.toNat + 256 * leNat bytes + carry.toNat) / 256 =
        leNat bytes + (carry.toNat + b.toNat) / 256 := by omega
    have split : (b.toNat + 256 * leNat bytes + carry.toNat) % 256 ^ (bytes.length + 1) =
        (carry.toNat + b.toNat) % 256 +
          256 * ((leNat bytes + (carry.toNat + b.toNat) / 256) % 256 ^ bytes.length) := by
      rw [pow_succ', Nat.mod_mul, low, high]
    rw [addCarry, leNat, ih next, shifted, UInt16.toNat_toUInt8, sum, leNat, List.length_cons,
      split]

theorem value_incCounter (c : AesCtr) : c.incCounter.counter.value = c.counter.value + 1 := by
  have size : c.counter.1.reverse.length = 16 := (List.length_reverse ..).trans c.counter.2
  have stepped : leNat (addCarry 1 c.counter.1.reverse) =
      (leNat c.counter.1.reverse + 1) % 256 ^ 16 := by
    rw [leNat_addCarry (by decide), size]
    rfl
  apply BitVec.eq_of_toNat_eq
  simp only [incCounter, Block.value, List.reverse_reverse, stepped]
  rw [BitVec.toNat_add, BitVec.toNat_ofNat, BitVec.toNat_ofNat]
  simp

/-- A byte of the keystream: the counter of its block is the initial one plus the number of
the block, modulo the range of the counter. -/
def keystream (cipher : Block → Block) (iv : Block) (i : Nat) : UInt8 :=
  (cipher (Block.ofValue (iv.value + BitVec.ofNat 128 (i / 16)))).1.getD (i % 16) 0

/-- The state when the text has come to a position of the keystream: the unused bytes are the
keystream from there on, and the counter is that of the block behind them. -/
structure At (cipher : Block → Block) (iv : Block) (position : Nat) (c : AesCtr) : Prop where
  cipher_eq : c.cipher = cipher
  size : c.available ≤ 16
  aligned : (position + c.available) % 16 = 0
  counter : c.counter.value = iv.value + BitVec.ofNat 128 ((position + c.available) / 16)
  left : c.state.1.drop (16 - c.available) = bytesFrom (keystream cipher iv) position c.available

variable {cipher : Block → Block} {iv : Block} {p n : Nat} {c : AesCtr}

theorem at_new (cipher : Block → Block) (iv : Block) : At cipher iv 0 (new cipher iv) where
  cipher_eq := rfl
  size := Nat.zero_le _
  aligned := rfl
  counter := by simp [new]
  left := rfl

/-- A block of the keystream is the cipher of its counter. -/
theorem bytesFrom_keystream (aligned : p % 16 = 0) :
    bytesFrom (keystream cipher iv) p 16 =
      (cipher (Block.ofValue (iv.value + BitVec.ofNat 128 (p / 16)))).1 := by
  have size := (cipher (Block.ofValue (iv.value + BitVec.ofNat 128 (p / 16)))).2
  have block := @bytesFrom_eq (keystream cipher iv) p
    (cipher (Block.ofValue (iv.value + BitVec.ofNat 128 (p / 16)))).1
  rw [size] at block
  apply block
  intro i inside
  have quotient : (p + i) / 16 = p / 16 := by omega
  have remainder : (p + i) % 16 = i := by omega
  rw [keystream, quotient, remainder]

theorem At.refill (h : At cipher iv p c) : At cipher iv p c.refill := by
  unfold AesCtr.refill
  split
  · rename_i none
    have aligned := h.aligned
    have counter := h.counter
    rw [none, Nat.add_zero] at aligned counter
    refine ⟨h.cipher_eq, Nat.le_refl 16, ?_, ?_, ?_⟩
    · exact (Nat.add_mod_right p 16).trans aligned
    · rw [value_incCounter]
      show c.counter.value + 1 = iv.value + BitVec.ofNat 128 ((p + 16) / 16)
      rw [counter, Nat.add_div_right p (Nat.succ_pos 15), BitVec.ofNat_add, BitVec.add_assoc]
      rfl
    · show (c.cipher c.counter).1 = bytesFrom (keystream cipher iv) p 16
      rw [bytesFrom_keystream aligned, ← counter, Block.ofValue_value, h.cipher_eq]
  · exact h

/-- Bytes are used up from the front. -/
theorem At.advance (h : At cipher iv p c) (fewer : n ≤ c.available) :
    At cipher iv (p + n) { c with available := c.available - n } := by
  have behind : p + n + (c.available - n) = p + c.available := by omega
  refine ⟨h.cipher_eq, Nat.le_trans (Nat.sub_le _ _) h.size, ?_, ?_, ?_⟩
  · show (p + n + (c.available - n)) % 16 = 0
    rw [behind]
    exact h.aligned
  · show c.counter.value = iv.value + BitVec.ofNat 128 ((p + n + (c.available - n)) / 16)
    rw [behind]
    exact h.counter
  · have start : 16 - (c.available - n) = 16 - c.available + n := by
      have := h.size
      omega
    show c.state.1.drop (16 - (c.available - n)) = bytesFrom (keystream cipher iv) (p + n) _
    rw [start, ← drop_bytesFrom _ p fewer, ← h.left, List.drop_drop]

/-- The next bytes in use are the next of the keystream. -/
theorem At.zipWith_state (h : At cipher iv p c) (text : List UInt8)
    (fewer : text.length ≤ c.available) :
    List.zipWith (· ^^^ ·) text ((c.state.1.drop (16 - c.available)).take text.length) =
      xorFrom (keystream cipher iv) p text := by
  rw [h.left, take_bytesFrom _ p fewer, zipWith_xor_bytesFrom]

/-- One round: some bytes of the block in use are added to as many of the text. -/
theorem encrypt_round (c : AesCtr) {text : List UInt8} (some : text ≠ []) :
    ∃ n, 0 < n ∧ n ≤ c.refill.available ∧ n ≤ text.length ∧
      c.encrypt text =
        ((encrypt { c.refill with available := c.refill.available - n } (text.drop n)).1,
          List.zipWith (· ^^^ ·) (text.take n)
              ((c.refill.state.1.drop (16 - c.refill.available)).take n) ++
            (encrypt { c.refill with available := c.refill.available - n } (text.drop n)).2) := by
  have filled := List.length_pos_iff.mpr some
  have more := c.available_refill_pos
  refine ⟨min c.refill.available text.length, by omega, Nat.min_le_left .., Nat.min_le_right .., ?_⟩
  rw [encrypt, if_neg some]

/-- A text is encrypted with the keystream from the position on, and moves it by its length. -/
theorem At.encrypt (h : At cipher iv p c) (text : List UInt8) :
    (c.encrypt text).2 = xorFrom (keystream cipher iv) p text ∧
      At cipher iv (p + text.length) (c.encrypt text).1 := by
  induction size : text.length using Nat.strong_induction_on generalizing p c text with
  | h length ih =>
    by_cases empty : text = []
    · subst empty size
      rw [AesCtr.encrypt, if_pos rfl]
      exact ⟨rfl, h⟩
    · obtain ⟨n, positive, inBlock, inText, round⟩ := c.encrypt_round empty
      have front : (text.take n).length = n := by
        rw [List.length_take]
        omega
      have behind : (text.drop n).length = length - n := by rw [List.length_drop, size]
      have used := h.refill.zipWith_state (text.take n) (by omega)
      rw [front] at used
      obtain ⟨rest, final⟩ := ih (length - n) (by omega) (h.refill.advance inBlock) _ behind
      have whole := xorFrom_append (keystream cipher iv) p (text.take n) (text.drop n)
      rw [List.take_append_drop, front] at whole
      rw [round, used, rest, whole]
      refine ⟨rfl, ?_⟩
      have total : p + n + (length - n) = p + length := by omega
      rw [total] at final
      exact final

/-- Between calls a block is used at least in part. -/
theorem available_encrypt_le (few : c.available ≤ 15) (text : List UInt8) :
    (c.encrypt text).1.available ≤ 15 := by
  induction size : text.length using Nat.strong_induction_on generalizing c text with
  | h length ih =>
    by_cases empty : text = []
    · rw [empty, encrypt, if_pos rfl]
      exact few
    · obtain ⟨n, positive, inBlock, inText, round⟩ := c.encrypt_round empty
      have most : c.refill.available ≤ 16 := by
        unfold refill
        split
        · exact Nat.le_refl 16
        · omega
      have behind : (text.drop n).length = length - n := by rw [List.length_drop, size]
      rw [round]
      refine ih (length - n) (by omega) ?_ _ behind
      show c.refill.available - n ≤ 15
      omega

end AesCtr

end Shairplay.Crypto
