import Shairplay.Codec.Alac
import Shairplay.Lib.Bits

/-!
# The reader of a frame reads its bits

The reader of the source fetches three bytes at a time and shifts. Here it is a position
in the bit string of the frame: reading a field of up to 32 bits yields the number of the
next bits, at every alignment, and moves the position behind them.
-/

namespace Shairplay.Codec

open Lib Lib.Bits

namespace BitReader

/-- The reader at a bit position of a frame. -/
def seek (buf : List UInt8) (q : Nat) : BitReader := ⟨buf, q / 8, BitVec.ofNat 32 (q % 8)⟩

theorem new_eq_seek (buf : List UInt8) : new buf = seek buf 0 := rfl

/-- The reader moves on by whole bytes and a rest. -/
theorem seek_add (buf : List UInt8) (q n : Nat) (small : n ≤ 24) :
    ({ seek buf q with
        pos := q / 8 + ((BitVec.ofNat 32 (q % 8) + BitVec.ofNat 32 n) >>> 3).toNat
        bit := (BitVec.ofNat 32 (q % 8) + BitVec.ofNat 32 n) &&& 7 } : BitReader) =
      seek buf (q + n) := by
  have sum : (BitVec.ofNat 32 (q % 8) + BitVec.ofNat 32 n : Word) =
      BitVec.ofNat 32 (q % 8 + n) := (BitVec.ofNat_add _ _).symm
  have total : (BitVec.ofNat 32 (q % 8 + n) : Word).toNat = q % 8 + n := by
    rw [BitVec.toNat_ofNat]
    exact Nat.mod_eq_of_lt (by omega)
  rw [sum, seek, seek, BitReader.mk.injEq]
  refine ⟨rfl, ?_, ?_⟩
  · rw [BitVec.toNat_ushiftRight, total, Nat.shiftRight_eq_div_pow]
    omega
  · apply BitVec.eq_of_toNat_eq
    have seven : (7 : Word).toNat = 2 ^ 3 - 1 := rfl
    rw [BitVec.toNat_and, total, seven, Nat.and_two_pow_sub_one_eq_mod, BitVec.toNat_ofNat]
    omega

/-- The three bytes a read fetches. -/
def fetched (buf : List UInt8) (p : Nat) : Nat := value (bitsAt buf (8 * p) 24)

theorem fetched_eq (buf : List UInt8) (p : Nat) :
    fetched buf p = (buf.getD p 0).toNat * 65536 + (buf.getD (p + 1) 0).toNat * 256 +
      (buf.getD (p + 2) 0).toNat := by
  rw [fetched, show 24 = 8 + (8 + 8) from rfl, bitsAt_add, bitsAt_add, value_append, value_append,
    List.length_append, length_bitsAt, length_bitsAt, value_byte,
    show 8 * p + 8 = 8 * (p + 1) by omega, value_byte,
    show 8 * (p + 1) + 8 = 8 * (p + 2) by omega, value_byte]
  ring

theorem toNat_fetched (buf : List UInt8) (p : Nat) (bit : Word) :
    (((BitReader.mk buf p bit).byteAt p <<< 16) ||| ((BitReader.mk buf p bit).byteAt (p + 1) <<< 8)
      ||| (BitReader.mk buf p bit).byteAt (p + 2)).toNat = fetched buf p := by
  have byte (i : Nat) : ((BitReader.mk buf p bit).byteAt i).toNat = (buf.getD i 0).toNat := by
    rw [byteAt, BitVec.toNat_setWidth]
    exact Nat.mod_eq_of_lt (Nat.lt_trans (UInt8.toNat_lt _) (by decide))
  have small (i : Nat) : (buf.getD i 0).toNat < 256 := UInt8.toNat_lt _
  have first := small p
  have second := small (p + 1)
  have third := small (p + 2)
  have low : (buf.getD (p + 1) 0).toNat <<< 8 ||| (buf.getD (p + 2) 0).toNat =
      (buf.getD (p + 1) 0).toNat * 256 + (buf.getD (p + 2) 0).toNat := by
    rw [← Nat.shiftLeft_add_eq_or_of_lt third, Nat.shiftLeft_eq]
  rw [BitVec.toNat_or, BitVec.toNat_or, BitVec.toNat_shiftLeft, BitVec.toNat_shiftLeft, byte, byte,
    byte, Nat.mod_eq_of_lt (by rw [Nat.shiftLeft_eq]; omega),
    Nat.mod_eq_of_lt (by rw [Nat.shiftLeft_eq]; omega), Nat.or_assoc, low,
    ← Nat.shiftLeft_add_eq_or_of_lt (by omega), fetched_eq, Nat.shiftLeft_eq]
  ring

/-- Shifting, masking and shifting back cuts a field out of the fetched bytes. -/
theorem fetched_field (buf : List UInt8) (p b n : Nat) (fits : b + n ≤ 24) :
    fetched buf p * 2 ^ b % 2 ^ 24 / 2 ^ (24 - n) = value (bitsAt buf (8 * p + b) n) := by
  obtain ⟨rest, total⟩ : ∃ rest, 24 = b + (n + rest) := ⟨24 - b - n, by omega⟩
  have parts : fetched buf p = value (bitsAt buf (8 * p) b) * 2 ^ (n + rest) +
      (value (bitsAt buf (8 * p + b) n) * 2 ^ rest + value (bitsAt buf (8 * p + b + n) rest)) := by
    rw [fetched, total, bitsAt_add, bitsAt_add, value_append, value_append, List.length_append,
      length_bitsAt, length_bitsAt]
  have low := value_lt (bitsAt buf (8 * p + b + n) rest)
  have mid := value_lt (bitsAt buf (8 * p + b) n)
  rw [length_bitsAt] at low mid
  generalize value (bitsAt buf (8 * p) b) = high at parts
  generalize value (bitsAt buf (8 * p + b) n) = field at parts mid ⊢
  generalize value (bitsAt buf (8 * p + b + n) rest) = tail at parts low
  have whole : fetched buf p * 2 ^ b = (field * 2 ^ rest + tail) * 2 ^ b + 2 ^ 24 * high := by
    rw [parts, total, pow_add]
    ring
  have below : (field * 2 ^ rest + tail) * 2 ^ b < 2 ^ 24 := by
    have inner : field * 2 ^ rest + tail < 2 ^ n * 2 ^ rest := by
      calc field * 2 ^ rest + tail < field * 2 ^ rest + 2 ^ rest := Nat.add_lt_add_left low _
        _ = (field + 1) * 2 ^ rest := by ring
        _ ≤ 2 ^ n * 2 ^ rest := Nat.mul_le_mul_right _ mid
    calc (field * 2 ^ rest + tail) * 2 ^ b < 2 ^ n * 2 ^ rest * 2 ^ b :=
          Nat.mul_lt_mul_of_pos_right inner (Nat.two_pow_pos b)
      _ = 2 ^ 24 := by rw [total, pow_add, pow_add]; ring
  have cut : 24 - n = rest + b := by omega
  rw [whole, Nat.add_mul_mod_self_left, Nat.mod_eq_of_lt below, cut, pow_add,
    Nat.mul_div_mul_right _ _ (Nat.two_pow_pos b)]
  exact Nat.div_eq_of_lt_le (by omega) (by rw [Nat.succ_mul]; omega)

/-- A field of up to 16 bits at a position. -/
theorem readbits16_seek (buf : List UInt8) (q n : Nat) (small : n ≤ 16) :
    (seek buf q).readbits16 (BitVec.ofNat 32 n) =
      (BitVec.ofNat 32 (value (bitsAt buf q n)), seek buf (q + n)) := by
  have offset : (BitVec.ofNat 32 (q % 8) : Word).toNat % 32 = q % 8 := by
    rw [BitVec.toNat_ofNat]
    omega
  have width : ((24 : Word) - BitVec.ofNat 32 n).toNat % 32 = 24 - n := by
    have given : (BitVec.ofNat 32 n : Word).toNat = n := by
      rw [BitVec.toNat_ofNat]
      omega
    have below : (BitVec.ofNat 32 n : Word) ≤ 24 := by
      rw [BitVec.le_def, given]
      exact Nat.le_trans small (by decide)
    rw [BitVec.toNat_sub_of_le below, given]
    show (24 - n) % 32 = _
    omega
  have mask : (0x00ffffff : Word).toNat = 2 ^ 24 - 1 := rfl
  have position : 8 * (q / 8) + q % 8 = q := Nat.div_add_mod q 8
  rw [readbits16]
  refine Prod.ext ?_ (seek_add buf q n (by omega))
  apply BitVec.eq_of_toNat_eq
  show (shr (shl (((BitReader.mk buf (q / 8) _).byteAt (q / 8) <<< 16) |||
    ((BitReader.mk buf (q / 8) _).byteAt (q / 8 + 1) <<< 8) |||
    (BitReader.mk buf (q / 8) _).byteAt (q / 8 + 2)) (BitVec.ofNat 32 (q % 8)) &&& 0x00ffffff)
    (24 - BitVec.ofNat 32 n)).toNat = _
  rw [shr, width, BitVec.toNat_ushiftRight, BitVec.toNat_and, mask,
    Nat.and_two_pow_sub_one_eq_mod, shl, offset, BitVec.toNat_shiftLeft, toNat_fetched,
    Nat.shiftLeft_eq, Nat.mod_mod_of_dvd _ (by decide), Nat.shiftRight_eq_div_pow,
    fetched_field _ _ _ _ (by omega), position, BitVec.toNat_ofNat]
  have bound := value_lt (bitsAt buf q n)
  rw [length_bitsAt] at bound
  exact (Nat.mod_eq_of_lt (Nat.lt_of_lt_of_le bound (Nat.pow_le_pow_right (by decide)
    (by omega)))).symm

theorem toNat_ofNat_value (buf : List UInt8) (q n : Nat) (small : n ≤ 32) :
    (BitVec.ofNat 32 (value (bitsAt buf q n)) : Word).toNat = value (bitsAt buf q n) := by
  have bound := value_lt (bitsAt buf q n)
  rw [length_bitsAt] at bound
  rw [BitVec.toNat_ofNat]
  exact Nat.mod_eq_of_lt (Nat.lt_of_lt_of_le bound (Nat.pow_le_pow_right (by decide) small))

/-- A field of up to 32 bits at a position; a long one is read in two parts. -/
theorem readbits_seek (buf : List UInt8) (q n : Nat) (small : n ≤ 32) :
    (seek buf q).readbits (BitVec.ofNat 32 n) =
      (BitVec.ofNat 32 (value (bitsAt buf q n)), seek buf (q + n)) := by
  have given : (BitVec.ofNat 32 n : Word).toNat = n := by
    rw [BitVec.toNat_ofNat]
    omega
  have sixteen : (16 : Word).toNat = 16 := rfl
  rw [readbits]
  split
  · rename_i long
    rw [BitVec.lt_def, given, sixteen] at long
    have rest : (BitVec.ofNat 32 n - 16 : Word) = BitVec.ofNat 32 (n - 16) := by
      apply BitVec.eq_of_toNat_eq
      rw [BitVec.toNat_sub_of_le (by rw [BitVec.le_def, given, sixteen]; omega), given, sixteen,
        BitVec.toNat_ofNat]
      omega
    have high : (seek buf q).readbits16 16 = _ := readbits16_seek buf q 16 le_rfl
    rw [rest, high]
    dsimp only
    rw [readbits16_seek buf (q + 16) (n - 16) (by omega)]
    dsimp only
    rw [Nat.add_assoc, Nat.add_sub_of_le (by omega)]
    refine Prod.ext (BitVec.eq_of_toNat_eq ?_) rfl
    have amount : (BitVec.ofNat 32 (n - 16) : Word).toNat % 32 = n - 16 := by
      rw [BitVec.toNat_ofNat]
      omega
    have whole := toNat_ofNat_value buf q n small
    have parts : value (bitsAt buf q n) =
        value (bitsAt buf q 16) * 2 ^ (n - 16) + value (bitsAt buf (q + 16) (n - 16)) := by
      have split := bitsAt_add buf q 16 (n - 16)
      rw [Nat.add_sub_of_le (by omega)] at split
      rw [split, value_append, length_bitsAt]
    have low := value_lt (bitsAt buf (q + 16) (n - 16))
    have bound := (BitVec.ofNat 32 (value (bitsAt buf q n)) : Word).isLt
    rw [length_bitsAt] at low
    rw [whole, parts] at bound
    rw [whole, parts, BitVec.toNat_or, shl, amount, BitVec.toNat_shiftLeft,
      toNat_ofNat_value _ _ _ (by omega), toNat_ofNat_value _ _ _ (by omega), Nat.shiftLeft_eq,
      Nat.mod_eq_of_lt (by omega), ← Nat.shiftLeft_eq, ← Nat.shiftLeft_add_eq_or_of_lt low]
  · rename_i short
    rw [BitVec.lt_def, given, sixteen] at short
    exact readbits16_seek buf q n (by omega)

/-- Reading a field that the frame holds. -/
theorem readbits_field {buf : List UInt8} {q : Nat} (width : Nat) {n : Nat}
    (held : Holds buf q (field width n)) (small : width ≤ 32) (fits : n < 2 ^ width) :
    (seek buf q).readbits (BitVec.ofNat 32 width) = (BitVec.ofNat 32 n, seek buf (q + width)) := by
  rw [readbits_seek buf q width small, value_of_holds held, Nat.mod_eq_of_lt fits]

/-- Reading one bit. -/
theorem readbit_seek (buf : List UInt8) (q : Nat) :
    (seek buf q).readbit = (if bitAt buf q then 1 else 0, seek buf (q + 1)) := by
  have small := UInt8.toNat_lt (buf.getD (q / 8) 0)
  have offset : (BitVec.ofNat 32 (q % 8) : Word).toNat = q % 8 := by
    rw [BitVec.toNat_ofNat]
    omega
  have next : (BitVec.ofNat 32 (q % 8) + 1 : Word).toNat = q % 8 + 1 := by
    rw [BitVec.toNat_add, offset]
    show (q % 8 + 1) % 2 ^ 32 = _
    omega
  have eight : (8 : Word).toNat = 8 := rfl
  refine Prod.ext ?_ ?_
  · apply BitVec.eq_of_getLsbD_eq
    intro i inside
    show ((shl ((buf.getD (q / 8) 0).toBitVec.setWidth 32) (BitVec.ofNat 32 (q % 8)) >>> 7) &&& 1
      : Word).getLsbD i = _
    have one : (1 : Word).getLsbD i = decide (i = 0) := by
      simp
    rw [shl, offset, Nat.mod_eq_of_lt (by omega), BitVec.getLsbD_and, one,
      BitVec.getLsbD_ushiftRight, BitVec.getLsbD_shiftLeft, BitVec.getLsbD_setWidth, bitAt]
    by_cases zero : i = 0
    · subst zero
      have above : ¬ 7 + 0 < q % 8 := by omega
      rw [BitVec.getLsbD, decide_eq_true (by omega : 7 + 0 < 32), decide_eq_false above,
        decide_eq_true (by omega : 7 + 0 - q % 8 < 32), Nat.add_zero]
      show (true && !false && (true && (buf.getD (q / 8) 0).toNat.testBit (7 - q % 8)) && true) = _
      cases (buf.getD (q / 8) 0).toNat.testBit (7 - q % 8) <;> simp
    · rw [decide_eq_false zero, Bool.and_false]
      split <;> simp [zero]
  · show ({ seek buf q with
      pos := q / 8 + ((BitVec.ofNat 32 (q % 8) + 1 : Word) / 8).toNat
      bit := (BitVec.ofNat 32 (q % 8) + 1) % 8 } : BitReader) = _
    rw [seek, seek, BitReader.mk.injEq]
    refine ⟨rfl, ?_, BitVec.eq_of_toNat_eq ?_⟩
    · rw [BitVec.toNat_udiv, next, eight]
      omega
    · rw [BitVec.toNat_umod, next, eight, BitVec.toNat_ofNat]
      omega

/-- Moving back to an earlier position. -/
theorem unreadbits_seek (buf : List UInt8) {q : Nat} {n : Word} (behind : n.toNat ≤ q) :
    (seek buf q).unreadbits n = seek buf (q - n.toNat) := by
  have offset : (BitVec.ofNat 32 (q % 8) : Word).toNat = q % 8 := by
    rw [BitVec.toNat_ofNat]
    omega
  have total : ((q / 8 : Nat) : Int) * 8 + ((q % 8 : Nat) : Int) - (n.toNat : Int) =
      ((q - n.toNat : Nat) : Int) := by
    omega
  rw [unreadbits, seek]
  dsimp only
  rw [offset, total, seek, BitReader.mk.injEq]
  refine ⟨rfl, ?_, ?_⟩
  · rw [Int.tdiv_eq_ediv_of_nonneg (Int.natCast_nonneg _)]
    omega
  · have rest : ((q - n.toNat : Nat) : Int).emod 8 = (((q - n.toNat) % 8 : Nat) : Int) := by
      rw [Int.natCast_mod]
      rfl
    rw [rest]
    rfl

/-- Reading the items of a list one after the other, where a read of one is known. -/
theorem produce_seek {α β : Type} {read : BitReader → β × BitReader} {code : α → List Bool}
    {item : α → β} {buf : List UInt8} {q : Nat}
    (reads : ∀ a q, Holds buf q (code a) →
      read (seek buf q) = (item a, seek buf (q + (code a).length)))
    (xs : List α) (held : Holds buf q (xs.flatMap code)) :
    Attempt.produce read xs.length (seek buf q) =
      (xs.map item, seek buf (q + (xs.flatMap code).length)) := by
  induction xs generalizing q with
  | nil => rfl
  | cons a xs ih =>
    rw [List.flatMap_cons, holds_append] at held
    rw [List.length_cons, Attempt.produce, reads a q held.1]
    dsimp only
    rw [ih held.2, List.map_cons, List.flatMap_cons, List.length_append, Nat.add_assoc]

end BitReader

end Shairplay.Codec
