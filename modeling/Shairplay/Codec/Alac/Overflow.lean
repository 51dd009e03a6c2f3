import Mathlib.Tactic.IntervalCases
import Shairplay.Codec.Alac.Rounds

/-!
# The range of the Rice history

The history of the Rice decoder moves towards 512 times the values that are decoded. Escape
codes and high Rice parameters let a frame choose these values, up to 65535, behind which the
history is set to a constant. So whether the history stays in the range of its type depends on
how fast it moves: on the product of the history multiplier with the largest value.
-/

namespace Shairplay.Codec

open Lib Lib.Bits

/-- The exact result of an operation on `i32` is an `i32`. -/
def InRange (z : Int) : Prop := -2147483648 ≤ z ∧ z < 2147483648

instance (z : Int) : Decidable (InRange z) := inferInstanceAs (Decidable (_ ∧ _))

/-- The exact results of the additions, subtractions and multiplications on `i32` in a round, each
on what its operands hold. -/
def RiceRound.results (readSampleSize : Word) (rice : RiceParams) (round : RiceRound) : List Int :=
  let zeros := countLeadingZeros (sar round.history 9 + 3)
  let v := 31 - rice.kModifier - zeros
  let value := (round.read readSampleSize rice).1
  let decodedValue := round.decodedValue readSampleSize rice
  let scaled := decodedValue * rice.historyMult
  let decay := sar (round.history * rice.historyMult) 9
  [31 - rice.kModifier.toInt, (31 - rice.kModifier).toInt - zeros.toInt,
    (sar round.history 9).toInt + 3] ++
  (if v.toInt < 0 then [v.toInt + rice.kModifier.toInt] else []) ++
  [value.toInt + round.signModifier.toInt, decodedValue.toInt + 1,
    decodedValue.toInt * rice.historyMult.toInt, round.history.toInt * rice.historyMult.toInt,
    scaled.toInt - decay.toInt, round.history.toInt + (scaled - decay).toInt]

/-- The history is not negative before and after a round, and all its operations are exact. -/
structure RiceRound.Sound (readSampleSize : Word) (rice : RiceParams) (round : RiceRound) :
    Prop where
  history : 0 ≤ round.history.toInt
  nextHistory : 0 ≤ (round.nextHistory readSampleSize rice).toInt
  results : ∀ z ∈ round.results readSampleSize rice, InRange z

/-- The exact value of a code: even codes are positive, odd codes negative. -/
def exactValue (code : Int) : Int :=
  if code % 2 = 0 then (code + 1).tdiv 2 else -(code + 1).tdiv 2

/-- What the decoder computes in a round is what the integers give. -/
structure RiceRound.Exact (readSampleSize : Word) (rice : RiceParams) (round : RiceRound) :
    Prop where
  level : (sar round.history 9 + 3).toInt = round.history.toInt / 512 + 3
  k : (rice.k round.history).toInt =
    if 31 - rice.kModifier.toInt < (countLeadingZeros (sar round.history 9 + 3)).toInt
    then 31 - (countLeadingZeros (sar round.history 9 + 3)).toInt else rice.kModifier.toInt
  decodedValue : (round.decodedValue readSampleSize rice).toInt =
    (round.read readSampleSize rice).1.toInt + round.signModifier.toInt
  value : (finalValue (round.decodedValue readSampleSize rice)).toInt =
    exactValue (round.decodedValue readSampleSize rice).toInt
  nextHistory : (round.nextHistory readSampleSize rice).toInt =
    if 65535 < (round.decodedValue readSampleSize rice).toInt then 65535
    else round.history.toInt + ((round.decodedValue readSampleSize rice).toInt *
      rice.historyMult.toInt - round.history.toInt * rice.historyMult.toInt / 512)

section Exact

variable {x y : Word}

theorem toInt_add_of_inRange (exact : InRange (x.toInt + y.toInt)) :
    (x + y).toInt = x.toInt + y.toInt := by
  apply BitVec.toInt_add_of_not_saddOverflow
  simp only [InRange] at exact
  simp only [BitVec.saddOverflow, Bool.or_eq_true, decide_eq_true_eq]
  omega

theorem toInt_sub_of_inRange (exact : InRange (x.toInt - y.toInt)) :
    (x - y).toInt = x.toInt - y.toInt := by
  apply BitVec.toInt_sub_of_not_ssubOverflow
  simp only [InRange] at exact
  simp only [BitVec.ssubOverflow, Bool.or_eq_true, decide_eq_true_eq]
  omega

theorem toInt_mul_of_inRange (exact : InRange (x.toInt * y.toInt)) :
    (x * y).toInt = x.toInt * y.toInt := by
  apply BitVec.toInt_mul_of_not_smulOverflow
  simp only [InRange] at exact
  simp only [BitVec.smulOverflow, Bool.or_eq_true, decide_eq_true_eq]
  omega

theorem toInt_sar_nine (x : Word) : (sar x 9).toInt = x.toInt / 512 := by
  rw [sar, BitVec.toInt_sshiftRight, Int.shiftRight_eq_div_pow]
  rfl

/-- A value is halved and negated without overflow. -/
theorem toInt_finalValue (exact : InRange (x.toInt + 1)) :
    (finalValue x).toInt = exactValue x.toInt := by
  have one : (1 : Word).toInt = 1 := rfl
  have two : (2 : Word).toInt = 2 := rfl
  have half : ((x + 1).sdiv 2).toInt = (x.toInt + 1).tdiv 2 := by
    rw [BitVec.toInt_sdiv_of_ne_or_ne _ _ (.inr (by decide)), two,
      toInt_add_of_inRange (y := 1) (by rwa [one]), one]
  have odd : x &&& 1 ≠ 0 ↔ ¬ x.toInt % 2 = 0 := by
    rw [not_iff_not, BitVec.toInt_eq_toNat_cond, ← BitVec.toNat_inj, BitVec.toNat_and]
    show x.toNat &&& 1 = 0 ↔ _
    rw [Nat.and_one_is_mod]
    split <;> omega
  have low : (x + 1).sdiv 2 ≠ .intMin 32 := by
    intro lowest
    have least : (BitVec.intMin 32).toInt = -2147483648 := rfl
    have whole := Int.tmod_add_mul_tdiv (x.toInt + 1) 2
    have rest := Int.tmod_lt_of_pos (x.toInt + 1) (show (0 : Int) < 2 by decide)
    rw [← half, lowest, least] at whole
    simp only [InRange] at exact
    omega
  rw [finalValue, exactValue]
  by_cases even : x.toInt % 2 = 0
  · rw [if_pos even, if_neg (by rw [odd]; exact not_not.mpr even), half]
  · rw [if_neg even, if_pos (odd.mpr even), BitVec.toInt_neg_of_ne_intMin low, half]

end Exact

/-- The operations of the decoder in a sound round are those of the integers. -/
theorem RiceRound.Sound.exact {readSampleSize : Word} {rice : RiceParams} {round : RiceRound}
    (sound : round.Sound readSampleSize rice) : round.Exact readSampleSize rice := by
  have inRange := sound.results
  simp only [RiceRound.results, List.forall_mem_append, List.forall_mem_cons] at inRange
  obtain ⟨⟨⟨room, counted, level, -⟩, parameter⟩, decoded, next, scaled, squared, difference,
    moved, -⟩ := inRange
  have thirtyOne : (31 : Word).toInt = 31 := rfl
  have three : (3 : Word).toInt = 3 := rfl
  have v := toInt_sub_of_inRange counted
  rw [@toInt_sub_of_inRange 31 rice.kModifier (by rwa [thirtyOne]), thirtyOne] at v
  refine ⟨?_, ?_, toInt_add_of_inRange decoded, toInt_finalValue next, ?_⟩
  · rw [toInt_add_of_inRange (by rwa [three]), three, toInt_sar_nine]
  · rw [RiceParams.k]
    by_cases negative :
        (31 - rice.kModifier - countLeadingZeros (sar round.history 9 + 3)).toInt < 0
    · rw [if_pos negative, List.forall_mem_singleton] at parameter
      rw [if_pos negative, toInt_add_of_inRange parameter, if_pos (by omega)]
      omega
    · rw [if_neg negative, if_neg (by omega)]
  · rw [RiceRound.nextHistory, RiceParams.nextHistory]
    split
    · rfl
    · rw [toInt_add_of_inRange moved, toInt_sub_of_inRange difference, toInt_mul_of_inRange scaled,
        toInt_sar_nine, toInt_mul_of_inRange squared]

/-- A decoder whose rounds are sound writes the exact values of their codes. -/
theorem riceValues_of_sound {readSampleSize : Word} {rice : RiceParams} {count : Nat}
    {history signModifier : Word} {r : BitReader}
    (sound : ∀ round ∈ riceRounds readSampleSize rice count history signModifier r,
      round.Sound readSampleSize rice) :
    (riceValues readSampleSize rice count history signModifier r).1.map BitVec.toInt =
      (riceRounds readSampleSize rice count history signModifier r).flatMap fun round =>
        exactValue ((round.read readSampleSize rice).1.toInt + round.signModifier.toInt) ::
          if round.HasRun readSampleSize rice then
            List.replicate (runLength (round.run readSampleSize rice).1 round.left) 0
          else [] := by
  rw [riceValues_eq_rounds, List.map_flatMap]
  refine List.flatMap_congr fun round mem => ?_
  have exact := (sound round mem).exact
  rw [RiceRound.values, List.map_cons, exact.value, exact.decodedValue]
  split
  · rw [List.map_replicate]
    rfl
  · rfl

namespace RiceParams

/-- Parameters that come from bytes of a configuration and three bits of a frame. -/
structure OfBytes (rice : RiceParams) : Prop where
  initialHistory : rice.initialHistory.toNat < 256
  kModifier : rice.kModifier.toNat < 256
  historyMult : rice.historyMult.toNat ≤ 446

/-- The largest value that is coded with at most the highest Rice parameter, or escaped. -/
def largestValue (rice : RiceParams) (n : Nat) : Nat :=
  max (9 * 2 ^ rice.kModifier.toNat - 10) (2 ^ n - 1)

/-- The largest value that the history follows. -/
def peak (rice : RiceParams) (n : Nat) : Nat := min 65535 (rice.largestValue n)

/-- The history settles below the range of its type. -/
def Settles (rice : RiceParams) (n : Nat) : Prop :=
  rice.historyMult.toNat * rice.peak n < 4194304

theorem peak_le (rice : RiceParams) (n : Nat) : rice.peak n ≤ 65535 := Nat.min_le_left _ _

end RiceParams

theorem AlacDecoder.riceParams_ofBytes (dec : AlacDecoder) {hdr : PredictorHeader}
    (modifier : hdr.ricemod.toNat < 8) : (dec.riceParams hdr).OfBytes where
  initialHistory := by
    have byte := dec.riceInitialHistory.isLt
    simp only [AlacDecoder.riceParams, BitVec.toNat_setWidth]
    omega
  kModifier := by
    have byte := dec.riceKModifier.isLt
    simp only [AlacDecoder.riceParams, BitVec.toNat_setWidth]
    omega
  historyMult := by
    have byte := dec.riceHistoryMult.isLt
    have product : hdr.ricemod.toNat * dec.riceHistoryMult.toNat ≤ 7 * 255 :=
      Nat.mul_le_mul (by omega) (by omega)
    have four : (4 : Word).toNat = 4 := rfl
    simp only [AlacDecoder.riceParams, BitVec.toNat_udiv, BitVec.toNat_mul, BitVec.toNat_setWidth,
      four]
    rw [Nat.mod_eq_of_lt (show dec.riceHistoryMult.toNat < 2 ^ 32 by omega)]
    omega

section Steps

variable {rice : RiceParams} {history decodedValue : Word}

theorem toInt_of_small {x : Word} (small : x.toNat < 2147483648) : x.toInt = x.toNat :=
  BitVec.toInt_eq_toNat_of_lt (by omega)

/-- A product below the range of `i32`. -/
theorem toNat_mul_of_small {x y : Word} (small : x.toNat * y.toNat < 2147483648) :
    (x * y).toNat = x.toNat * y.toNat := by
  rw [BitVec.toNat_mul]
  exact Nat.mod_eq_of_lt (by omega)

/-- A difference of numbers in range is in range. -/
theorem toInt_sub_of_small {x y : Word} (left : x.toNat < 2147483648)
    (right : y.toNat < 2147483648) : (x - y).toInt = x.toNat - y.toNat := by
  rw [BitVec.toInt_eq_toNat_cond, BitVec.toNat_sub]
  omega

theorem countLeadingZeros_le (x : Word) : (countLeadingZeros x).toNat ≤ 32 := by
  rw [countLeadingZeros]
  split
  · exact le_rfl
  · exact BitVec.le_def.mp BitVec.clz_le

theorem inRange_parameter {m c : Word} (byte : m.toNat < 256) (zeros : c.toNat ≤ 32) :
    InRange (31 - m.toInt) ∧ InRange ((31 - m).toInt - c.toInt) ∧
      InRange ((31 - m - c).toInt + m.toInt) := by
  have thirtyOne : (31 : Word).toNat = 31 := rfl
  have room := toInt_sub_of_small (x := 31) (y := m) (by omega) (by omega)
  have last : (31 - m - c).toInt = 31 - (m.toNat : Int) - c.toNat := by
    rw [BitVec.toInt_eq_toNat_cond, BitVec.toNat_sub, BitVec.toNat_sub, thirtyOne]
    omega
  rw [room, last, toInt_of_small (x := m) (by omega), toInt_of_small (x := c) (by omega)]
  simp only [InRange]
  omega

/-- The history moves in range, if its product and its sum with the scaled value are in range. -/
theorem inRange_history {h d m : Word} (slow : m.toNat ≤ 446) (value : d.toNat < 2147483648)
    (squared : h.toNat * m.toNat < 2147483648) (sum : h.toNat + d.toNat * m.toNat < 2147483648) :
    InRange (d.toInt * m.toInt) ∧ InRange (h.toInt * m.toInt) ∧
      InRange ((d * m).toInt - (sar (h * m) 9).toInt) ∧
      InRange (h.toInt + (d * m - sar (h * m) 9).toInt) := by
  have product := toNat_mul_of_small (x := d) (y := m) (by omega)
  have square := toNat_mul_of_small squared
  have decay := toNat_sar_of_small (x := h * m) (by omega)
  have scaled : (d.toNat : Int) * m.toNat = (d.toNat * m.toNat : Nat) := by push_cast; rfl
  have squares : (h.toNat : Int) * m.toNat = (h.toNat * m.toNat : Nat) := by push_cast; rfl
  rw [toInt_sub_of_small (x := d * m) (by omega) (by omega), toInt_of_small (x := d * m) (by omega),
    toInt_of_small (x := sar (h * m) 9) (by omega), toInt_of_small (x := d) value,
    toInt_of_small (x := m) (by omega), toInt_of_small (x := h) (by omega), product, decay, square,
    scaled, squares]
  simp only [InRange]
  omega

/-- The share of the history that a round takes away is no more than the history. -/
theorem decay_le {h m : Nat} (slow : m ≤ 512) : h * m / 512 ≤ h :=
  Nat.div_le_of_le_mul (by rw [Nat.mul_comm 512]; exact Nat.mul_le_mul_left h slow)

theorem toNat_nextHistory (slow : rice.historyMult.toNat ≤ 446)
    (positive : history.toNat < 1073741824)
    (inside : history.toNat * rice.historyMult.toNat < 2147483648)
    (value : decodedValue.toNat < 2147483648) :
    (rice.nextHistory history decodedValue).toNat =
      if 65535 < decodedValue.toNat then 65535
      else history.toNat + decodedValue.toNat * rice.historyMult.toNat -
        history.toNat * rice.historyMult.toNat / 512 := by
  have limit : ((0xFFFF : Word).toNat : Int) = 65535 := rfl
  rw [RiceParams.nextHistory, toInt_of_small value]
  by_cases large : 65535 < decodedValue.toNat
  · rw [if_pos (by omega), if_pos large]
    rfl
  · rw [if_neg (by omega), if_neg large]
    have product : decodedValue.toNat * rice.historyMult.toNat ≤ 65535 * 446 :=
      Nat.mul_le_mul (by omega) slow
    have scaled := toNat_mul_of_small (x := decodedValue) (y := rice.historyMult) (by omega)
    have squared := toNat_mul_of_small inside
    have decay := toNat_sar_of_small (x := history * rice.historyMult) (by omega)
    have less := decay_le (h := history.toNat) (m := rice.historyMult.toNat) (by omega)
    rw [BitVec.toNat_add, BitVec.toNat_sub, scaled, decay, squared]
    omega

/-- A history below 512 times a bound stays there as long as the values keep to the bound. -/
theorem settles_step {bound d h m : Nat} (slow : m ≤ 512) (value : d ≤ bound)
    (inside : h ≤ 512 * bound) : h + d * m - h * m / 512 ≤ 512 * bound := by
  obtain ⟨gap, total⟩ := Nat.exists_eq_add_of_le inside
  have scaled : d * m ≤ bound * m := Nat.mul_le_mul_right m value
  have kept : bound * m ≤ h * m / 512 + gap := by
    have cover : bound * m * 512 ≤ (h * m / 512 + gap) * 512 + 511 := by
      have whole := Nat.div_add_mod (h * m) 512
      have rest := Nat.mod_lt (h * m) (show 0 < 512 by decide)
      have part : gap * m ≤ gap * 512 := Nat.mul_le_mul_left gap slow
      calc bound * m * 512 = 512 * bound * m := by ring
        _ = h * m + gap * m := by rw [total, Nat.add_mul]
        _ ≤ (h * m / 512 + gap) * 512 + 511 := by omega
    omega
  omega

end Steps

/-- The state of a decoder whose history settles. -/
structure Tame (rice : RiceParams) (n : Nat) (buf : List UInt8) (history signModifier : Word)
    (r : BitReader) : Prop where
  bounded : history.toNat ≤ 512 * max 8 (rice.peak n)
  sign : signModifier = 0 ∨ signModifier = 1 ∧ history = 0
  reader : ∃ q, r = .seek buf q

namespace Tame

variable {rice : RiceParams} {n : Nat} {buf : List UInt8}

section Round

variable {round : RiceRound} (bytes : rice.OfBytes) (size : n ≤ 25)
  (tame : Tame rice n buf round.history round.signModifier round.reader)
include bytes size tame

omit size in
theorem k_le : (rice.k round.history).toNat ≤ 16 := by
  have low := tame.bounded
  have limit := rice.peak_le n
  have k := rice.toNat_k bytes.kModifier (show round.history.toNat < 2147483648 by omega)
  have level : (round.history.toNat / 512 + 3).log2 < 17 := by
    rw [Nat.log2_lt (by omega)]
    omega
  omega

/-- The value that is read, and the reader behind it. -/
theorem read : ∃ q, (round.read (BitVec.ofNat 32 n) rice).2 = .seek buf q ∧
    (round.read (BitVec.ofNat 32 n) rice).1.toNat ≤ rice.largestValue n ∧
    (round.read (BitVec.ofNat 32 n) rice).1.toNat ≤ max 589814 (2 ^ n - 1) := by
  obtain ⟨q, at'⟩ := tame.reader
  have low := tame.bounded
  have limit := rice.peak_le n
  have k := rice.toNat_k bytes.kModifier (show round.history.toNat < 2147483648 by omega)
  have small := tame.k_le bytes
  obtain ⟨q', moved, value⟩ := @entropyDecodeValue_seek buf q n (rice.k round.history) 0xFFFFFFFF
    (by omega) (by omega)
  rw [← at'] at moved value
  have modifier : 2 ^ (rice.k round.history).toNat ≤ 2 ^ rice.kModifier.toNat :=
    Nat.pow_le_pow_right (by decide) (by omega)
  have sixteen : 2 ^ (rice.k round.history).toNat ≤ 2 ^ 16 :=
    Nat.pow_le_pow_right (by decide) small
  refine ⟨q', moved, Nat.le_trans value ?_, Nat.le_trans value ?_⟩
  · rw [RiceParams.largestValue]
    omega
  · omega

/-- The sign modifier adds at most one. -/
theorem toNat_decodedValue :
    (round.decodedValue (BitVec.ofNat 32 n) rice).toNat =
      (round.read (BitVec.ofNat 32 n) rice).1.toNat + round.signModifier.toNat ∧
    round.signModifier.toNat ≤ 1 := by
  obtain ⟨-, -, -, value⟩ := tame.read bytes size
  have power : 2 ^ n ≤ 2 ^ 25 := Nat.pow_le_pow_right (by decide) size
  have sign : round.signModifier.toNat ≤ 1 := by
    rcases tame.sign with zero | ⟨one, -⟩
    · rw [zero]
      exact Nat.zero_le 1
    · rw [one]
      exact le_rfl
  refine ⟨?_, sign⟩
  rw [RiceRound.decodedValue, BitVec.toNat_add]
  omega

omit size in
/-- The history and its product with the multiplier are in range. -/
theorem product (settles : rice.Settles n) :
    round.history.toNat * rice.historyMult.toNat < 2147483648 := by
  have bound : max 8 (rice.peak n) * rice.historyMult.toNat < 4194304 := by
    have slow := bytes.historyMult
    rw [RiceParams.Settles, Nat.mul_comm] at settles
    rcases Nat.le_total 8 (rice.peak n) with high | low
    · rwa [Nat.max_eq_right high]
    · rw [Nat.max_eq_left low]
      omega
  calc round.history.toNat * rice.historyMult.toNat ≤
        512 * max 8 (rice.peak n) * rice.historyMult.toNat := Nat.mul_le_mul_right _ tame.bounded
    _ = 512 * (max 8 (rice.peak n) * rice.historyMult.toNat) := by ring
    _ < 2147483648 := by omega

/-- The history stays below 512 times the peak. -/
theorem next (settles : rice.Settles n) :
    (round.nextHistory (BitVec.ofNat 32 n) rice).toNat ≤ 512 * max 8 (rice.peak n) := by
  obtain ⟨-, -, value, bounded⟩ := tame.read bytes size
  obtain ⟨sum, sign⟩ := tame.toNat_decodedValue bytes size
  have slow := bytes.historyMult
  have low := tame.bounded
  have limit := rice.peak_le n
  have power : 2 ^ n ≤ 2 ^ 25 := Nat.pow_le_pow_right (by decide) size
  rw [RiceRound.nextHistory, toNat_nextHistory slow (by omega) (tame.product bytes settles)
    (by omega)]
  have peak : rice.peak n = min 65535 (rice.largestValue n) := rfl
  split
  · omega
  · rename_i followed
    rcases tame.sign with zero | ⟨-, start⟩
    · apply settles_step (by omega) _ low
      rw [zero] at sum
      have none : (0 : Word).toNat = 0 := rfl
      omega
    · -- behind a run of zeros the history starts at zero
      have none : (0 : Word).toNat = 0 := rfl
      rw [start, none, Nat.zero_mul, Nat.zero_div, Nat.zero_add, Nat.sub_zero]
      have value : (round.decodedValue (BitVec.ofNat 32 n) rice).toNat ≤ max 8 (rice.peak n) + 1 :=
        by omega
      calc (round.decodedValue (BitVec.ofNat 32 n) rice).toNat * rice.historyMult.toNat ≤
            (max 8 (rice.peak n) + 1) * 446 := Nat.mul_le_mul value slow
        _ ≤ 512 * max 8 (rice.peak n) := by omega

/-- A small history has a small parameter for the length of a run. -/
theorem zeroRunK_le (settles : rice.Settles n) (run : round.HasRun (BitVec.ofNat 32 n) rice) :
    (zeroRunK (round.nextHistory (BitVec.ofNat 32 n) rice)).toNat ≤ 8 := by
  have each : ∀ h < 128, (zeroRunK (BitVec.ofNat 32 h)).toNat ≤ 8 := by decide +kernel
  have next := tame.next bytes size settles
  have limit := rice.peak_le n
  have below := run.1
  rw [toInt_of_small (by omega)] at below
  have word := each (round.nextHistory (BitVec.ofNat 32 n) rice).toNat (by omega)
  rwa [BitVec.ofNat_toNat, BitVec.setWidth_eq] at word

/-- The state behind a run of zeros. -/
theorem after_run (settles : rice.Settles n) (run : round.HasRun (BitVec.ofNat 32 n) rice) :
    Tame rice n buf 0 (signAfter (round.run (BitVec.ofNat 32 n) rice).1)
      (round.run (BitVec.ofNat 32 n) rice).2 := by
  obtain ⟨q, moved, -⟩ := tame.read bytes size
  have small := tame.zeroRunK_le bytes size settles run
  obtain ⟨q', behind, -⟩ := @entropyDecodeValue_seek buf q 16
    (zeroRunK (round.nextHistory (BitVec.ofNat 32 n) rice)) rice.kModifierMask (by decide)
    (by omega)
  refine ⟨Nat.zero_le _, ?_, q', ?_⟩
  · rw [signAfter]
    split
    · exact .inl rfl
    · exact .inr ⟨rfl, rfl⟩
  · rw [RiceRound.run, moved]
    exact behind

theorem after_value (settles : rice.Settles n) :
    Tame rice n buf (round.nextHistory (BitVec.ofNat 32 n) rice) 0
      (round.read (BitVec.ofNat 32 n) rice).2 := by
  obtain ⟨q, moved, -⟩ := tame.read bytes size
  exact ⟨tame.next bytes size settles, .inl rfl, q, moved⟩

end Round

/-- A channel starts in such a state. -/
theorem initial (bytes : rice.OfBytes) (n q : Nat) :
    Tame rice n buf rice.initialHistory 0 (.seek buf q) := by
  refine ⟨?_, .inl rfl, q, rfl⟩
  have start := bytes.initialHistory
  omega

/-- Every round of a channel starts from such a state. -/
theorem rounds (bytes : rice.OfBytes) (size : n ≤ 25) (settles : rice.Settles n) (count q : Nat) :
    ∀ round ∈ riceRounds (BitVec.ofNat 32 n) rice count rice.initialHistory 0 (.seek buf q),
      Tame rice n buf round.history round.signModifier round.reader := by
  apply forall_riceRounds
  · intro round tame run
    exact tame.after_run bytes size settles run
  · intro round tame _
    exact tame.after_value bytes size settles
  · exact initial bytes n q

/-- The next history before its share is taken away, if the largest value can be multiplied. -/
theorem scaled_lt (bytes : rice.OfBytes) (size : n ≤ 25) (settles : rice.Settles n)
    (escapes : 2 ^ n * rice.historyMult.toNat < 2147483648) {round : RiceRound}
    (tame : Tame rice n buf round.history round.signModifier round.reader) :
    round.history.toNat +
      (round.decodedValue (BitVec.ofNat 32 n) rice).toNat * rice.historyMult.toNat <
        2147483648 := by
  obtain ⟨-, -, largest, value⟩ := tame.read bytes size
  obtain ⟨sum, sign⟩ := tame.toNat_decodedValue bytes size
  have low := tame.bounded
  have slow := bytes.historyMult
  have limit := rice.peak_le n
  generalize (round.decodedValue (BitVec.ofNat 32 n) rice).toNat = d at sum ⊢
  by_cases short : d ≤ 589815
  · have product : d * rice.historyMult.toNat ≤ 589815 * 446 := Nat.mul_le_mul short slow
    omega
  · -- only an escape code is that large, and then the multiplier is small
    have peak : rice.peak n = 65535 := by
      rw [RiceParams.peak]
      omega
    rw [RiceParams.Settles, peak] at settles
    have product : d * rice.historyMult.toNat ≤ 2 ^ n * rice.historyMult.toNat :=
      Nat.mul_le_mul_right _ (by omega)
    by_cases widest : n = 25
    · subst widest
      omega
    · have power : 2 ^ n * rice.historyMult.toNat ≤ 2 ^ 24 * 64 :=
        Nat.mul_le_mul (Nat.pow_le_pow_right (by decide) (by omega)) (by omega)
      omega

/-- Such a round is sound, if the largest value can be multiplied. -/
theorem sound (bytes : rice.OfBytes) (size : n ≤ 25) (settles : rice.Settles n)
    (escapes : 2 ^ n * rice.historyMult.toNat < 2147483648) {round : RiceRound}
    (tame : Tame rice n buf round.history round.signModifier round.reader) :
    round.Sound (BitVec.ofNat 32 n) rice := by
  obtain ⟨-, -, -, value⟩ := tame.read bytes size
  obtain ⟨sum, sign⟩ := tame.toNat_decodedValue bytes size
  have low := tame.bounded
  have next := tame.next bytes size settles
  have limit := rice.peak_le n
  have power : 2 ^ n ≤ 2 ^ 25 := Nat.pow_le_pow_right (by decide) size
  obtain ⟨room, counted, parameter⟩ := inRange_parameter bytes.kModifier
    (countLeadingZeros_le (sar round.history 9 + 3))
  obtain ⟨scaled, squared, difference, moved⟩ := inRange_history bytes.historyMult (by omega)
    (tame.product bytes settles) (tame.scaled_lt bytes size settles escapes)
  have shifted := toNat_sar_of_small (x := round.history) (by omega)
  refine ⟨?_, ?_, ?_⟩
  · rw [toInt_of_small (by omega)]
    omega
  · rw [toInt_of_small (by omega)]
    omega
  · simp only [RiceRound.results, List.forall_mem_append, List.forall_mem_cons]
    refine ⟨⟨⟨room, counted, ?_, by simp⟩, ?_⟩, ?_, ?_, scaled, squared, difference, moved, by simp⟩
    · rw [toInt_of_small (by omega), InRange]
      omega
    · split
      · simpa using parameter
      · simp
    · rw [toInt_of_small (by omega), toInt_of_small (by omega), InRange]
      omega
    · rw [toInt_of_small (by omega), InRange]
      omega

end Tame

/-- The code of a value with a Rice parameter: ones, a zero, and the rest in a field. One bit has
no rest. -/
def riceBits (k d : Nat) : List Bool :=
  List.replicate (d / (2 ^ k - 1)) true ++
    (false :: if k = 1 then [] else field k (d % (2 ^ k - 1) + 1))

section Codes

variable {buf : List UInt8} {q : Nat}

theorem readUnary_ones_zero {ones room : Nat} (few : ones < room) (x : Word)
    (held : Holds buf q (List.replicate ones true ++ [false])) :
    readUnary room x (.seek buf q) = (x + BitVec.ofNat 32 ones, .seek buf (q + ones + 1)) := by
  induction ones generalizing room x q with
  | zero =>
    obtain ⟨room, rfl⟩ := Nat.exists_eq_succ_of_ne_zero (Nat.ne_of_gt few)
    rw [List.replicate_zero, List.nil_append, holds_cons] at held
    rw [readUnary, BitReader.readbit_seek, held.1]
    simp
  | succ ones ih =>
    obtain ⟨room, rfl⟩ := Nat.exists_eq_succ_of_ne_zero (Nat.ne_of_gt (Nat.zero_lt_of_lt few))
    rw [List.replicate_succ, List.cons_append, holds_cons] at held
    rw [readUnary, BitReader.readbit_seek, held.1]
    dsimp only
    rw [if_pos rfl, if_pos (by decide), ih (Nat.lt_of_succ_lt_succ few) _ held.2,
      add_one_add_ofNat, show q + 1 + ones + 1 = q + (ones + 1) + 1 by omega]

theorem entropyDecodeValue_riceBits {k d : Nat} (readSampleSize : Word) (low : 0 < k)
    (high : k ≤ 28) (few : d / (2 ^ k - 1) ≤ 8) (rest : k ≠ 1 → d % (2 ^ k - 1) ≠ 0)
    (held : Holds buf q (riceBits k d)) :
    entropyDecodeValue readSampleSize (BitVec.ofNat 32 k) 0xFFFFFFFF (.seek buf q) =
      (BitVec.ofNat 32 d, .seek buf (q + (riceBits k d).length)) := by
  have power : (2 : Nat) ^ k ≤ 2 ^ 28 := Nat.pow_le_pow_right (by decide) high
  have two : (2 : Nat) ^ 1 ≤ 2 ^ k := Nat.pow_le_pow_right (by decide) low
  have parts := Nat.div_add_mod d (2 ^ k - 1)
  have below := Nat.mod_lt d (show 0 < 2 ^ k - 1 by omega)
  have word : (BitVec.ofNat 32 k : Word).toNat = k := by
    rw [BitVec.toNat_ofNat]
    omega
  rw [riceBits, List.append_cons, holds_append, List.length_append, List.length_replicate,
    List.length_singleton, ← Nat.add_assoc] at held
  obtain ⟨unary, extra⟩ := held
  have count : ((0 : Word) + BitVec.ofNat 32 (d / (2 ^ k - 1))).toNat = d / (2 ^ k - 1) := by
    rw [zero_add, BitVec.toNat_ofNat]
    exact Nat.mod_eq_of_lt (Nat.lt_of_le_of_lt few (by decide))
  rw [entropyDecodeValue, readUnary_ones_zero (by rw [riceThreshold]; omega) _ unary]
  dsimp only
  rw [count, if_neg (by rw [riceThreshold]; omega)]
  by_cases one : k = 1
  · subst one
    rw [if_neg (by decide), zero_add]
    simp [riceBits, Nat.add_assoc]
  · have other : (BitVec.ofNat 32 k : Word) ≠ 1 := by
      intro same
      rw [same] at word
      exact one word.symm
    rw [if_neg one] at extra
    rw [if_pos other, BitReader.readbits_field k extra (by omega) (by omega)]
    dsimp only
    have held : (BitVec.ofNat 32 (d % (2 ^ k - 1) + 1) : Word).toNat = d % (2 ^ k - 1) + 1 := by
      rw [BitVec.toNat_ofNat]
      omega
    have large : (1 : Word) < BitVec.ofNat 32 (d % (2 ^ k - 1) + 1) := by
      have nonzero := rest one
      rw [BitVec.lt_def, held]
      show 1 < _
      omega
    have full : (shl 1 (BitVec.ofNat 32 k) - 1) &&& (0xFFFFFFFF : Word) =
        shl 1 (BitVec.ofNat 32 k) - 1 := BitVec.and_allOnes
    have factor := toNat_factor (k := BitVec.ofNat 32 k) (by omega)
    rw [word] at factor
    rw [if_pos large, full]
    refine Prod.ext (BitVec.eq_of_toNat_eq ?_) ?_
    · have product : d / (2 ^ k - 1) * (2 ^ k - 1) ≤ 8 * (2 ^ k - 1) :=
        Nat.mul_le_mul_right _ few
      have unit : (1 : Word).toNat = 1 := rfl
      rw [Nat.mul_comm] at parts
      dsimp only
      rw [BitVec.toNat_add, BitVec.toNat_mul, count, factor,
        BitVec.toNat_sub_of_le (by rw [BitVec.le_def, held, unit]; omega), held, unit,
        BitVec.toNat_ofNat]
      omega
    · simp [riceBits, one, Nat.add_assoc, Nat.add_comm 1]

end Codes

section Climbing

variable {rice : RiceParams} {n : Nat}

/-- What a round takes away from the history is below the threshold in any case. -/
theorem decay_lt (x : Word) : (sar x 9).toInt < 4194304 := by
  have bound := x.toInt_lt
  rw [sar, BitVec.toInt_sshiftRight, Int.shiftRight_eq_div_pow]
  show x.toInt / 512 < _
  omega

/-- The value that drives the history at a Rice parameter. -/
def drive (k : Nat) : Nat := min 65527 (9 * 2 ^ k - 10)

theorem drive_coded {k : Nat} (low : 0 < k) (high : k ≤ 22) :
    drive k / (2 ^ k - 1) ≤ 8 ∧ (k ≠ 1 → drive k % (2 ^ k - 1) ≠ 0) := by
  rw [drive]
  interval_cases k <;> decide

/-- Below the highest parameter the value outweighs what a round takes away. -/
theorem drive_outweighs {k m h : Nat} (low : 0 < k) (level : h / 512 + 3 < 2 ^ (k + 1))
    (positive : 0 < m) (short : k ≤ 12) : h * m / 512 < drive k * m := by
  have power : (2 : Nat) ^ 1 ≤ 2 ^ k := Nat.pow_le_pow_right (by decide) low
  have limit : (2 : Nat) ^ k ≤ 2 ^ 12 := Nat.pow_le_pow_right (by decide) short
  rw [Nat.pow_succ] at level
  have less : h < drive k * 512 := by
    rw [drive]
    omega
  rw [Nat.div_lt_iff_lt_mul (by decide), Nat.mul_right_comm]
  exact Nat.mul_lt_mul_of_pos_right less positive

/-- A value whose product reaches the threshold outweighs everything. -/
theorem outweighs_of_reaches {m : Word} (history : Word) {d : Nat}
    (reaches : 4194304 ≤ m.toNat * d) : (sar (history * m) 9).toInt < d * m.toNat := by
  have decay := decay_lt (history * m)
  have cast : (d : Int) * m.toNat = (m.toNat * d : Nat) := by
    push_cast
    ring
  rw [cast]
  omega

section Fast

variable (bytes : rice.OfBytes) (fast : 4194304 ≤ rice.historyMult.toNat * rice.peak n)
include fast

theorem historyMult_of_fast : 65 ≤ rice.historyMult.toNat := by
  by_contra small
  have product : rice.historyMult.toNat * rice.peak n ≤ 64 * 65535 :=
    Nat.mul_le_mul (by omega) (rice.peak_le n)
  omega

include bytes

theorem peak_of_fast : 8 ≤ rice.peak n := by
  by_contra small
  have product : rice.historyMult.toNat * rice.peak n ≤ 446 * 7 :=
    Nat.mul_le_mul bytes.historyMult (by omega)
  omega

/-- Where escape codes are too short, the Rice parameter of every history has a value that
outweighs what the round takes away. -/
theorem drive_of_fast (short : 2 ^ n - 1 < rice.peak n) {history : Word}
    (positive : history.toNat < 2147483648) :
    0 < (rice.k history).toNat ∧ (rice.k history).toNat ≤ 22 ∧
      (sar (history * rice.historyMult) 9).toInt <
        drive (rice.k history).toNat * rice.historyMult.toNat := by
  have slow := bytes.historyMult
  have multiplier := historyMult_of_fast fast
  have peak := peak_of_fast bytes fast
  have largest : rice.peak n = min 65535 (9 * 2 ^ rice.kModifier.toNat - 10) := by
    rw [RiceParams.peak, RiceParams.largestValue] at short ⊢
    omega
  have modifier : 0 < rice.kModifier.toNat := by
    rcases Nat.eq_zero_or_pos rice.kModifier.toNat with zero | modifier
    · rw [largest, zero] at peak
      omega
    · exact modifier
  have parameter := rice.toNat_k bytes.kModifier positive
  have low : 0 < (history.toNat / 512 + 3).log2 :=
    (Nat.le_log2 (by omega)).mpr (show 2 ^ 1 ≤ _ by omega)
  have high : (history.toNat / 512 + 3).log2 < 23 := by
    rw [Nat.log2_lt (by omega)]
    omega
  generalize (rice.k history).toNat = k at parameter ⊢
  refine ⟨by omega, by omega, ?_⟩
  rcases Nat.lt_or_ge 12 k with large | small
  · apply outweighs_of_reaches
    have thirteen : (2 : Nat) ^ 13 ≤ 2 ^ k := Nat.pow_le_pow_right (by decide) (by omega)
    rw [drive, show min 65527 (9 * 2 ^ k - 10) = 65527 by omega]
    omega
  · have twelve : (2 : Nat) ^ k ≤ 2 ^ 12 := Nat.pow_le_pow_right (by decide) small
    by_cases top : k = rice.kModifier.toNat
    · apply outweighs_of_reaches
      rw [largest, ← top] at fast
      rwa [drive, show min 65527 (9 * 2 ^ k - 10) = min 65535 (9 * 2 ^ k - 10) by omega]
    · -- the history is still far from its limit, and the product does not wrap
      have level : history.toNat / 512 + 3 < 2 ^ (k + 1) := by
        rw [show k = (history.toNat / 512 + 3).log2 by omega]
        exact Nat.lt_log2_self
      have outweighs := drive_outweighs (k := k) (m := rice.historyMult.toNat)
        (h := history.toNat) (by omega) level (by omega) small
      rw [Nat.pow_succ] at level
      have product : history.toNat * rice.historyMult.toNat ≤ 4194304 * 446 :=
        Nat.mul_le_mul (by omega) slow
      have square := toNat_mul_of_small (x := history) (y := rice.historyMult) (by omega)
      have share := toNat_sar_of_small (x := history * rice.historyMult) (by omega)
      rw [toInt_of_small (by omega), share, square]
      exact_mod_cast outweighs

/-- Where the product of multiplier and peak reaches the threshold, there is a code at every
history whose value outweighs what the round takes away. -/
theorem exists_drive (size : n ≤ 25) {history : Word} (positive : history.toNat < 2147483648) :
    ∃ bits, ∃ d : Nat, 8 ≤ d ∧ d ≤ 65535 ∧
      (sar (history * rice.historyMult) 9).toInt < d * rice.historyMult.toNat ∧
      ∀ buf q, Holds buf q bits →
        entropyDecodeValue (BitVec.ofNat 32 n) (rice.k history) 0xFFFFFFFF (.seek buf q) =
          (BitVec.ofNat 32 d, .seek buf (q + bits.length)) := by
  have peak := peak_of_fast bytes fast
  by_cases escapes : rice.peak n ≤ 2 ^ n - 1
  · refine ⟨escape n (rice.peak n), rice.peak n, peak, rice.peak_le n,
      outweighs_of_reaches history fast, ?_⟩
    have width : 0 < n := by
      rcases Nat.eq_zero_or_pos n with zero | width
      · subst zero
        omega
      · exact width
    intro buf q held
    exact entropyDecodeValue_escape _ _ held width (by omega) (by omega)
  · obtain ⟨low, high, outweighs⟩ :=
      drive_of_fast bytes fast (Nat.lt_of_not_le escapes) positive
    have word : rice.k history = BitVec.ofNat 32 (rice.k history).toNat := by simp
    generalize (rice.k history).toNat = k at low high outweighs word
    obtain ⟨few, rest⟩ := drive_coded low high
    have two : (2 : Nat) ^ 1 ≤ 2 ^ k := Nat.pow_le_pow_right (by decide) low
    refine ⟨riceBits k (drive k), drive k, ?_, ?_, outweighs, ?_⟩
    · rw [drive]
      omega
    · rw [drive]
      omega
    · intro buf q held
      rw [word]
      exact entropyDecodeValue_riceBits _ low (by omega) few rest held

end Fast

/-- A value that outweighs what a round takes away lets the history grow. -/
theorem nextHistory_grows (slow : rice.historyMult.toNat ≤ 446) {history : Word}
    (positive : history.toNat < 2147483648) {d : Nat} (large : 8 ≤ d) (followed : d ≤ 65535)
    (fast : 65 ≤ rice.historyMult.toNat)
    (outweighs : (sar (history * rice.historyMult) 9).toInt < d * rice.historyMult.toNat) :
    history.toNat < (rice.nextHistory history (BitVec.ofNat 32 d)).toNat ∧
      128 ≤ (rice.nextHistory history (BitVec.ofNat 32 d)).toNat := by
  have word : (BitVec.ofNat 32 d : Word).toNat = d := by
    rw [BitVec.toNat_ofNat]
    omega
  have low : 8 * 65 ≤ d * rice.historyMult.toNat := Nat.mul_le_mul large fast
  have high : d * rice.historyMult.toNat ≤ 65535 * 446 := Nat.mul_le_mul followed slow
  have scaled := toNat_mul_of_small (x := BitVec.ofNat 32 d) (y := rice.historyMult)
    (by rw [word]; omega)
  rw [word] at scaled
  have decay := decay_lt (history * rice.historyMult)
  have share : -4194304 ≤ (sar (history * rice.historyMult) 9).toInt := by
    have bound := (history * rice.historyMult).le_toInt
    rw [sar, BitVec.toInt_sshiftRight, Int.shiftRight_eq_div_pow]
    show _ ≤ (history * rice.historyMult).toInt / 512
    omega
  have unwrapped : history.toNat * rice.historyMult.toNat < 2147483648 →
      (sar (history * rice.historyMult) 9).toInt ≤ history.toNat := by
    intro inside
    have square := toNat_mul_of_small inside
    have part := toNat_sar_of_small (x := history * rice.historyMult) (by omega)
    have less := decay_le (h := history.toNat) (m := rice.historyMult.toNat) (by omega)
    rw [toInt_of_small (by omega), part, square]
    omega
  have far : 2147483648 ≤ history.toNat * rice.historyMult.toNat → 128 ≤ history.toNat := by
    intro outside
    by_contra near
    have product : history.toNat * rice.historyMult.toNat ≤ 128 * 446 :=
      Nat.mul_le_mul (by omega) slow
    omega
  have limit : ((0xFFFF : Word).toNat : Int) = 65535 := rfl
  have cast : (d : Int) * rice.historyMult.toNat = (d * rice.historyMult.toNat : Nat) := by
    push_cast
    rfl
  rw [cast] at outweighs
  rw [RiceParams.nextHistory, toInt_of_small (x := BitVec.ofNat 32 d) (by omega),
    if_neg (by omega), BitVec.toNat_add, BitVec.toNat_sub, scaled]
  rw [BitVec.toInt_eq_toNat_cond] at outweighs decay share unwrapped
  omega

/-- The rounds of a frame that drives the history end with a negative history, in front of a zero
bit. -/
theorem exists_climb (bytes : rice.OfBytes) (size : n ≤ 25)
    (fast : 4194304 ≤ rice.historyMult.toNat * rice.peak n) (t : Nat) {history : Word}
    (positive : history.toNat < 2147483648) (near : 2147483648 ≤ history.toNat + t) :
    ∃ bits, ∀ buf q, Holds buf q bits →
      ∃ round ∈ riceRounds (BitVec.ofNat 32 n) rice (t + 1) history 0 (.seek buf q),
        (round.nextHistory (BitVec.ofNat 32 n) rice).toInt < 0 ∧ 0 < round.left ∧
        ∃ q', (round.read (BitVec.ofNat 32 n) rice).2 = .seek buf q' ∧ bitAt buf q' = false := by
  induction t generalizing history with
  | zero => omega
  | succ t ih =>
    obtain ⟨bits, d, large, followed, outweighs, decodes⟩ :=
      exists_drive bytes fast size positive
    obtain ⟨grows, far⟩ := nextHistory_grows bytes.historyMult positive large followed
      (historyMult_of_fast fast) outweighs
    -- what the first round does, wherever the code stands
    have first (buf : List UInt8) (q : Nat) (held : Holds buf q bits) :
        RiceRound.read (BitVec.ofNat 32 n) rice ⟨t + 1, history, 0, .seek buf q⟩ =
          (BitVec.ofNat 32 d, .seek buf (q + bits.length)) ∧
        RiceRound.nextHistory (BitVec.ofNat 32 n) rice ⟨t + 1, history, 0, .seek buf q⟩ =
          rice.nextHistory history (BitVec.ofNat 32 d) := by
      have read := decodes buf q held
      refine ⟨read, ?_⟩
      rw [RiceRound.nextHistory, RiceRound.decodedValue, RiceRound.read, read, add_zero]
    generalize rice.nextHistory history (BitVec.ofNat 32 d) = next at grows far first
    by_cases wrapped : 2147483648 ≤ next.toNat
    · refine ⟨bits ++ [false], fun buf q held => ?_⟩
      rw [holds_append, holds_cons] at held
      obtain ⟨code, zero, -⟩ := held
      obtain ⟨read, moved⟩ := first buf q code
      rw [riceRounds]
      refine ⟨_, List.mem_cons_self, ?_, Nat.succ_pos t, q + bits.length, ?_, zero⟩
      · rw [moved, BitVec.toInt_eq_toNat_cond]
        have bound := next.isLt
        omega
      · rw [read]
    · obtain ⟨rest, climbs⟩ := @ih next (by omega) (by omega)
      refine ⟨bits ++ rest, fun buf q held => ?_⟩
      rw [holds_append] at held
      obtain ⟨code, held⟩ := held
      obtain ⟨read, moved⟩ := first buf q code
      have goes : ¬ RiceRound.HasRun (BitVec.ofNat 32 n) rice ⟨t + 1, history, 0, .seek buf q⟩ := by
        rw [RiceRound.HasRun, moved, toInt_of_small (by omega)]
        omega
      obtain ⟨round, mem, found⟩ := climbs buf (q + bits.length) held
      rw [riceRounds]
      refine ⟨round, List.mem_cons_of_mem _ ?_, found⟩
      rw [if_neg goes, moved, read]
      exact mem

end Climbing

/-- Behind a history that was set to its constant, the largest escape code of all overflows. -/
theorem not_sound_escape {rice : RiceParams} (multiplier : rice.historyMult = 64)
    {round : RiceRound} (history : round.history = 0xFFFF)
    (decoded : round.decodedValue (BitVec.ofNat 32 25) rice = BitVec.ofNat 32 33554431) :
    ¬ round.Sound (BitVec.ofNat 32 25) rice := by
  intro sound
  have sum := sound.results (round.history.toInt +
    (round.decodedValue (BitVec.ofNat 32 25) rice * rice.historyMult -
      sar (round.history * rice.historyMult) 9).toInt) (by simp [RiceRound.results])
  rw [history, decoded, multiplier] at sum
  exact absurd sum.2 (by decide)

/-- Two such codes are enough. -/
theorem exists_escape_overflow {rice : RiceParams} (multiplier : rice.historyMult = 64) :
    ∃ bits, ∀ buf q, Holds buf q bits →
      ∃ round ∈ riceRounds (BitVec.ofNat 32 25) rice 2 rice.initialHistory 0 (.seek buf q),
        ¬ round.Sound (BitVec.ofNat 32 25) rice := by
  refine ⟨escape 25 33554431 ++ escape 25 33554431, fun buf q held => ?_⟩
  obtain ⟨first, second⟩ := holds_append.mp held
  have decodes {left q : Nat} (history : Word) (held : Holds buf q (escape 25 33554431)) :
      RiceRound.read (BitVec.ofNat 32 25) rice ⟨left, history, 0, .seek buf q⟩ = _ :=
    entropyDecodeValue_escape _ _ held (by decide) (by decide) (by decide)
  have decoded {left q : Nat} (history : Word) (held : Holds buf q (escape 25 33554431)) :
      RiceRound.decodedValue (BitVec.ofNat 32 25) rice ⟨left, history, 0, .seek buf q⟩ =
        BitVec.ofNat 32 33554431 := by
    rw [RiceRound.decodedValue, decodes history held, add_zero]
  have next : RiceRound.nextHistory (BitVec.ofNat 32 25) rice
      ⟨1, rice.initialHistory, 0, .seek buf q⟩ = 0xFFFF := by
    rw [RiceRound.nextHistory, decoded _ first, RiceParams.nextHistory, if_pos (by decide)]
  have goes : ¬ RiceRound.HasRun (BitVec.ofNat 32 25) rice
      ⟨1, rice.initialHistory, 0, .seek buf q⟩ := by
    rw [RiceRound.HasRun, next]
    exact fun run => absurd run.1 (by decide)
  refine ⟨⟨0, 0xFFFF, 0, .seek buf (q + (escape 25 33554431).length)⟩, ?_,
    not_sound_escape multiplier rfl (decoded _ second)⟩
  rw [riceRounds]
  dsimp only
  rw [if_neg goes, next, decodes _ first, riceRounds]
  exact List.mem_cons_of_mem _ List.mem_cons_self

/-- Where the history settles, only the widest size has values that are too large to be multiplied,
and only with one multiplier. -/
theorem escape_bound {rice : RiceParams} {n : Nat} (bytes : rice.OfBytes) (size : n ≤ 25)
    (settles : rice.Settles n) (large : 2147483648 ≤ 2 ^ n * rice.historyMult.toNat) :
    n = 25 ∧ rice.historyMult = 64 := by
  have slow := bytes.historyMult
  have wide : 23 ≤ n := by
    by_contra narrow
    have product : 2 ^ n * rice.historyMult.toNat ≤ 2 ^ 22 * 446 :=
      Nat.mul_le_mul (Nat.pow_le_pow_right (by decide) (by omega)) slow
    omega
  have power : 2 ^ 23 ≤ 2 ^ n := Nat.pow_le_pow_right (by decide) wide
  have peak : rice.peak n = 65535 := by
    rw [RiceParams.peak, RiceParams.largestValue]
    omega
  rw [RiceParams.Settles, peak] at settles
  have widest : n = 25 := by
    by_contra narrow
    have product : 2 ^ n * rice.historyMult.toNat ≤ 2 ^ 24 * 64 :=
      Nat.mul_le_mul (Nat.pow_le_pow_right (by decide) (by omega)) (by omega)
    omega
  subst widest
  refine ⟨rfl, BitVec.eq_of_toNat_eq ?_⟩
  show _ = 64
  omega

/-- All operations on `i32` are in range and the history is never negative, for all numbers of
values and all frames, just when the multiplier is small enough for the largest value that the
history follows and for the largest value of all. -/
theorem rice_in_range_iff (dec : AlacDecoder) (hdr : PredictorHeader)
    (modifier : hdr.ricemod.toNat < 8) (n : Nat) (size : n ≤ 25) :
    (∀ count buf q, ∀ round ∈ riceRounds (BitVec.ofNat 32 n) (dec.riceParams hdr) count
        (dec.riceParams hdr).initialHistory 0 (.seek buf q),
      round.Sound (BitVec.ofNat 32 n) (dec.riceParams hdr)) ↔
    (dec.riceParams hdr).Settles n ∧
      2 ^ n * (dec.riceParams hdr).historyMult.toNat < 2147483648 := by
  have bytes := dec.riceParams_ofBytes modifier
  generalize dec.riceParams hdr = rice at bytes ⊢
  constructor
  · intro sound
    have settles : rice.Settles n := by
      by_contra fast
      have start := bytes.initialHistory
      have positive : rice.initialHistory.toNat < 2147483648 := by omega
      obtain ⟨bits, climbs⟩ := exists_climb bytes size (Nat.le_of_not_lt fast) 2147483648 positive
        (by omega)
      obtain ⟨round, mem, negative, -⟩ := climbs (pack bits) 0 (holds_pack bits)
      have fine := (sound _ _ _ round mem).nextHistory
      omega
    refine ⟨settles, ?_⟩
    by_contra escapes
    obtain ⟨rfl, multiplier⟩ := escape_bound bytes size settles (Nat.le_of_not_lt escapes)
    obtain ⟨bits, overflows⟩ := exists_escape_overflow multiplier
    obtain ⟨round, mem, unsound⟩ := overflows (pack bits) 0 (holds_pack bits)
    exact unsound (sound _ _ _ round mem)
  · rintro ⟨settles, escapes⟩ count buf q round mem
    exact (Tame.rounds bytes size settles count q round mem).sound bytes size settles escapes

/-- A configuration for mono frames of two 16-bit samples, with a given history multiplier. -/
def monoConfig (historyMult : UInt8) : List UInt8 :=
  List.replicate 24 0 ++ [0, 0, 0, 2, 0, 16, historyMult, 10, 14, 1] ++ List.replicate 14 0

/-- A header with a given Rice modifier and no prediction. -/
def plainHeader (ricemod : Word) : PredictorHeader := ⟨0, ricemod, 0, List.replicate 32 0⟩

/-- The usual multiplier of 40 keeps 16-bit samples in range. -/
theorem rice_in_range_usual :
    let rice := ((AlacDecoder.new 16 1).setInfo (monoConfig 40)).riceParams (plainHeader 4)
    rice.historyMult = 40 ∧
    ∀ count buf q, ∀ round ∈ riceRounds (BitVec.ofNat 32 16) rice count rice.initialHistory 0
      (.seek buf q), round.Sound (BitVec.ofNat 32 16) rice := by
  refine ⟨by decide +kernel, ?_⟩
  apply (rice_in_range_iff _ _ (by decide) 16 (by decide)).mpr
  constructor
  · show _ * _ < 4194304
    decide +kernel
  · decide +kernel

/-- With the largest multiplier the second value of a frame of ones overflows. -/
theorem rice_overflows :
    let rice := ((AlacDecoder.new 16 1).setInfo (monoConfig 255)).riceParams (plainHeader 7)
    rice.historyMult = 446 ∧
    ∃ round ∈ riceRounds 16 rice 2 rice.initialHistory 0 (.new (List.replicate 7 0xFF)),
      ∃ z ∈ round.results 16 rice, ¬ InRange z := by
  intro rice
  have goes : ¬ RiceRound.HasRun 16 rice
      ⟨1, rice.initialHistory, 0, .new (List.replicate 7 0xFF)⟩ := by decide +kernel
  refine ⟨by decide +kernel,
    ⟨0, RiceRound.nextHistory 16 rice ⟨1, rice.initialHistory, 0, .new (List.replicate 7 0xFF)⟩, 0,
      (RiceRound.read 16 rice ⟨1, rice.initialHistory, 0, .new (List.replicate 7 0xFF)⟩).2⟩, ?_, ?_⟩
  · rw [riceRounds]
    dsimp only
    rw [if_neg goes, riceRounds]
    exact List.mem_cons_of_mem _ List.mem_cons_self
  · decide +kernel

end Shairplay.Codec
