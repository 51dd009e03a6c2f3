import Shairplay.Codec.Alac.Encoder

/-!
# The rounds of the Rice decoder

A round of `entropy_rice_decode` reads one value, moves the history on, and reads the length of
a run of zeros if the history has become small. The rounds of a channel are listed with the
state each one starts from, so that what the decoder computes on the way can be spoken about:
the values it writes are the values of its rounds.
-/

namespace Shairplay.Codec

open Lib Lib.Bits

/-- What a round starts from, and how many values are left behind the one it reads. -/
structure RiceRound where
  left : Nat
  history : Word
  signModifier : Word
  reader : BitReader

namespace RiceRound

variable (readSampleSize : Word) (rice : RiceParams) (round : RiceRound)

/-- The coded value, and the reader behind it. -/
def read : Word × BitReader :=
  entropyDecodeValue readSampleSize (rice.k round.history) 0xFFFFFFFF round.reader

def decodedValue : Word := (round.read readSampleSize rice).1 + round.signModifier

def nextHistory : Word := rice.nextHistory round.history (round.decodedValue readSampleSize rice)

/-- The length of a run of zeros follows. -/
def HasRun : Prop := (round.nextHistory readSampleSize rice).toInt < 128 ∧ 0 < round.left

instance : Decidable (round.HasRun readSampleSize rice) :=
  inferInstanceAs (Decidable (_ ∧ _))

/-- The length of the run, and the reader behind it. -/
def run : Word × BitReader :=
  entropyDecodeValue 16 (zeroRunK (round.nextHistory readSampleSize rice)) rice.kModifierMask
    (round.read readSampleSize rice).2

def values : List Word :=
  finalValue (round.decodedValue readSampleSize rice) ::
    if round.HasRun readSampleSize rice then
      List.replicate (runLength (round.run readSampleSize rice).1 round.left) 0
    else []

end RiceRound

/-- The rounds of the next `count` values. -/
def riceRounds (readSampleSize : Word) (rice : RiceParams) :
    (count : Nat) → (history signModifier : Word) → BitReader → List RiceRound
  | 0, _, _, _ => []
  | count + 1, history, signModifier, r =>
    let round : RiceRound := ⟨count, history, signModifier, r⟩
    round ::
      if round.HasRun readSampleSize rice then
        let run := round.run readSampleSize rice
        riceRounds readSampleSize rice (count - runLength run.1 count) 0 (signAfter run.1) run.2
      else
        riceRounds readSampleSize rice count (round.nextHistory readSampleSize rice) 0
          (round.read readSampleSize rice).2
  termination_by count => count
  decreasing_by
  · exact Nat.lt_succ_of_le (Nat.sub_le _ _)
  · exact Nat.lt_succ_self _

section Rounds

variable {readSampleSize : Word} {rice : RiceParams}

/-- The values of the first round, and of those behind it. -/
theorem riceValues_succ (count : Nat) (history signModifier : Word) (r : BitReader) :
    let round : RiceRound := ⟨count, history, signModifier, r⟩
    let run := round.run readSampleSize rice
    let rest :=
      if round.HasRun readSampleSize rice then
        riceValues readSampleSize rice (count - runLength run.1 count) 0 (signAfter run.1) run.2
      else
        riceValues readSampleSize rice count (round.nextHistory readSampleSize rice) 0
          (round.read readSampleSize rice).2
    riceValues readSampleSize rice (count + 1) history signModifier r =
      (round.values readSampleSize rice ++ rest.1, rest.2) := by
  intro round run
  rw [riceValues, RiceRound.values]
  by_cases runs : round.HasRun readSampleSize rice
  · simp only [if_pos runs, List.cons_append]
    exact if_pos runs
  · simp only [if_neg runs, List.cons_append, List.nil_append]
    exact if_neg runs

/-- Induction along the rounds: what is left after a round is what the run of zeros leaves, or
all of it. -/
@[elab_as_elim] theorem rounds_induction (readSampleSize : Word) (rice : RiceParams)
    {motive : Nat → Word → Word → BitReader → Prop}
    (zero : ∀ history signModifier r, motive 0 history signModifier r)
    (run : ∀ round : RiceRound, round.HasRun readSampleSize rice →
      motive (round.left - runLength (round.run readSampleSize rice).1 round.left) 0
        (signAfter (round.run readSampleSize rice).1) (round.run readSampleSize rice).2 →
      motive (round.left + 1) round.history round.signModifier round.reader)
    (value : ∀ round : RiceRound, ¬ round.HasRun readSampleSize rice →
      motive round.left (round.nextHistory readSampleSize rice) 0
        (round.read readSampleSize rice).2 →
      motive (round.left + 1) round.history round.signModifier round.reader)
    (count : Nat) (history signModifier : Word) (r : BitReader) :
    motive count history signModifier r := by
  induction count using Nat.strongRecOn generalizing history signModifier r with
  | ind count ih =>
    cases count with
    | zero => exact zero history signModifier r
    | succ count =>
      by_cases runs : RiceRound.HasRun readSampleSize rice ⟨count, history, signModifier, r⟩
      · exact run _ runs (ih _ (Nat.lt_succ_of_le (Nat.sub_le _ _)) _ _ _)
      · exact value _ runs (ih _ (Nat.lt_succ_self _) _ _ _)

theorem riceValues_eq_rounds (count : Nat) (history signModifier : Word) (r : BitReader) :
    (riceValues readSampleSize rice count history signModifier r).1 =
      (riceRounds readSampleSize rice count history signModifier r).flatMap
        (RiceRound.values readSampleSize rice) := by
  induction count, history, signModifier, r using rounds_induction readSampleSize rice with
  | zero => simp [riceValues, riceRounds]
  | run round hasRun ih =>
    rw [riceValues_succ, riceRounds, List.flatMap_cons]
    simp only [if_pos hasRun, ih]
  | value round noRun ih =>
    rw [riceValues_succ, riceRounds, List.flatMap_cons]
    simp only [if_neg noRun, ih]

section Keeps

variable {P : Word → Word → BitReader → Prop}
  (runs : ∀ round : RiceRound, P round.history round.signModifier round.reader →
    round.HasRun readSampleSize rice →
    P 0 (signAfter (round.run readSampleSize rice).1) (round.run readSampleSize rice).2)
  (goes : ∀ round : RiceRound, P round.history round.signModifier round.reader →
    ¬ round.HasRun readSampleSize rice →
    P (round.nextHistory readSampleSize rice) 0 (round.read readSampleSize rice).2)

include runs goes

/-- What each round keeps of history, sign and reader holds behind the last one. -/
theorem riceValues_keeps (count : Nat) {history signModifier : Word} {r : BitReader}
    (start : P history signModifier r) :
    ∃ history' signModifier',
      P history' signModifier' (riceValues readSampleSize rice count history signModifier r).2 := by
  induction count, history, signModifier, r using rounds_induction readSampleSize rice with
  | zero history signModifier r =>
    rw [riceValues]
    exact ⟨history, signModifier, start⟩
  | run round hasRun ih =>
    rw [riceValues_succ]
    simp only [if_pos hasRun]
    exact ih (runs round start hasRun)
  | value round noRun ih =>
    rw [riceValues_succ]
    simp only [if_neg noRun]
    exact ih (goes round start noRun)

/-- What each round keeps of history, sign and reader holds at the start of every round. -/
theorem forall_riceRounds (count : Nat) {history signModifier : Word} {r : BitReader}
    (start : P history signModifier r) :
    ∀ round ∈ riceRounds readSampleSize rice count history signModifier r,
      P round.history round.signModifier round.reader := by
  induction count, history, signModifier, r using rounds_induction readSampleSize rice with
  | zero => simp [riceRounds]
  | run round hasRun ih =>
    rw [riceRounds, List.forall_mem_cons, if_pos hasRun]
    exact ⟨start, ih (runs round start hasRun)⟩
  | value round noRun ih =>
    rw [riceRounds, List.forall_mem_cons, if_neg noRun]
    exact ⟨start, ih (goes round start noRun)⟩

end Keeps

end Rounds

section Reading

variable {buf : List UInt8} {q : Nat}

theorem add_one_add_ofNat (x : Word) (n : Nat) :
    x + 1 + BitVec.ofNat 32 n = x + BitVec.ofNat 32 (n + 1) := by
  rw [BitVec.ofNat_add, BitVec.add_assoc, BitVec.add_comm 1]
  rfl

/-- The ones in front of a value. A count below the limit ends with a zero bit. -/
theorem readUnary_seek (room : Nat) (x : Word) : ∃ ones q', ones ≤ room ∧
    (ones < room → q < q') ∧
    readUnary room x (.seek buf q) = (x + BitVec.ofNat 32 ones, .seek buf q') := by
  induction room generalizing x q with
  | zero => exact ⟨0, q, le_rfl, fun h => absurd h (Nat.lt_irrefl 0), by simp [readUnary]⟩
  | succ room ih =>
    rw [readUnary, BitReader.readbit_seek]
    cases bitAt buf q with
    | false => exact ⟨0, q + 1, Nat.zero_le _, fun _ => Nat.lt_succ_self q, by simp⟩
    | true =>
      obtain ⟨ones, q', inside, moved, reads⟩ := @ih (q + 1) (x + 1)
      refine ⟨ones + 1, q', Nat.succ_le_succ inside, fun h => ?_, ?_⟩
      · exact Nat.lt_of_succ_lt (moved (Nat.lt_of_succ_lt_succ h))
      · dsimp only
        rw [if_pos rfl, if_pos (by decide), reads, add_one_add_ofNat]

theorem toNat_factor {k : Word} (small : k.toNat ≤ 28) : (shl 1 k - 1).toNat = 2 ^ k.toNat - 1 := by
  have power : (2 : Nat) ^ k.toNat ≤ 2 ^ 28 := Nat.pow_le_pow_right (by decide) small
  have positive := Nat.two_pow_pos k.toNat
  have one : (1 : Word).toNat = 1 := rfl
  have shifted : (shl 1 k).toNat = 2 ^ k.toNat := by
    rw [shl, Nat.mod_eq_of_lt (by omega), BitVec.toNat_shiftLeft, one, Nat.one_shiftLeft]
    exact Nat.mod_eq_of_lt (by omega)
  rw [BitVec.toNat_sub_of_le (by rw [BitVec.le_def, shifted, one]; omega), shifted, one]

/-- A value has at most nine times its Rice parameter's range, or is an escape code. The reader
stays at a position of the frame. -/
theorem entropyDecodeValue_seek {n : Nat} {k : Word} (mask : Word) (size : n ≤ 32)
    (small : k.toNat ≤ 28) : ∃ q',
    (entropyDecodeValue (BitVec.ofNat 32 n) k mask (.seek buf q)).2 = .seek buf q' ∧
    (entropyDecodeValue (BitVec.ofNat 32 n) k mask (.seek buf q)).1.toNat ≤
      max (9 * 2 ^ k.toNat - 10) (2 ^ n - 1) := by
  obtain ⟨ones, q', inside, moved, reads⟩ :=
    @readUnary_seek buf q (riceThreshold + 1) 0
  have few : ones ≤ 9 := inside
  have count : ((0 : Word) + BitVec.ofNat 32 ones).toNat = ones := by
    rw [zero_add, BitVec.toNat_ofNat]
    omega
  rw [entropyDecodeValue, reads]
  dsimp only
  rw [count]
  by_cases escaped : riceThreshold < ones
  · rw [if_pos escaped, BitReader.readbits_seek buf q' n size]
    refine ⟨q' + n, rfl, ?_⟩
    have field := value_lt (bitsAt buf q' n)
    rw [length_bitsAt] at field
    apply Nat.le_trans _ (Nat.le_max_right _ _)
    rw [BitVec.toNat_and, BitReader.toNat_ofNat_value _ _ _ size]
    exact Nat.le_trans Nat.and_le_left (Nat.le_pred_of_lt field)
  · rw [if_neg escaped]
    have below : ones ≤ 8 := Nat.le_of_not_lt escaped
    split
    · have power : (2 : Nat) ^ k.toNat ≤ 2 ^ 28 := Nat.pow_le_pow_right (by decide) small
      have positive := Nat.two_pow_pos k.toNat
      have factor : ((shl 1 k - 1) &&& mask).toNat ≤ 2 ^ k.toNat - 1 := by
        rw [BitVec.toNat_and, toNat_factor small]
        exact Nat.and_le_left
      have unary : ((0 + BitVec.ofNat 32 ones) * ((shl 1 k - 1) &&& mask)).toNat ≤
          8 * (2 ^ k.toNat - 1) := by
        rw [BitVec.toNat_mul, count]
        exact Nat.le_trans (Nat.mod_le _ _) (Nat.mul_le_mul below factor)
      have extra := value_lt (bitsAt buf q' k.toNat)
      rw [length_bitsAt] at extra
      have read := BitReader.readbits_seek buf q' k.toNat (by omega)
      rw [BitVec.ofNat_toNat, BitVec.setWidth_eq] at read
      have held := BitReader.toNat_ofNat_value buf q' k.toNat (by omega)
      rw [read]
      dsimp only
      split
      · rename_i large
        have one : (1 : Word).toNat = 1 := rfl
        rw [BitVec.lt_def, held, one] at large
        refine ⟨q' + k.toNat, rfl, Nat.le_trans ?_ (Nat.le_max_left _ _)⟩
        rw [BitVec.toNat_add, BitVec.toNat_sub_of_le (by rw [BitVec.le_def, held, one]; omega),
          held, one]
        apply Nat.le_trans (Nat.mod_le _ _)
        omega
      · refine ⟨q' + k.toNat - 1, ?_, Nat.le_trans ?_ (Nat.le_max_left _ _)⟩
        · have ahead : q < q' := moved (Nat.lt_succ_of_le below)
          have behind : (1 : Word).toNat ≤ q' + k.toNat := by
            change 1 ≤ q' + k.toNat
            omega
          exact BitReader.unreadbits_seek buf behind
        · rename_i several _
          have other : k.toNat ≠ 1 := fun one => several (BitVec.eq_of_toNat_eq one)
          by_cases none : k.toNat = 0
          · rw [none] at unary ⊢
            exact unary
          · have four : (2 : Nat) ^ 2 ≤ 2 ^ k.toNat := Nat.pow_le_pow_right (by decide) (by omega)
            exact Nat.le_trans unary (by omega)
    · rename_i isOne
      have k1 : k = 1 := not_not.mp isOne
      refine ⟨q', rfl, Nat.le_trans ?_ (Nat.le_max_left _ _)⟩
      rw [count, k1]
      exact below

end Reading

theorem toNat_sar_of_small {x : Word} (small : x.toNat < 2147483648) :
    (sar x 9).toNat = x.toNat / 512 := by
  have sign : x.msb = false := by
    rw [BitVec.msb_eq_false_iff_two_mul_lt]
    omega
  rw [sar, BitVec.sshiftRight_eq_of_msb_false sign, BitVec.toNat_ushiftRight,
    Nat.shiftRight_eq_div_pow]
  rfl

/-- The parameter of a value grows with the logarithm of the history, up to the modifier. -/
theorem RiceParams.toNat_k {rice : RiceParams} (byte : rice.kModifier.toNat < 256) {history : Word}
    (positive : history.toNat < 2147483648) :
    (rice.k history).toNat = min (history.toNat / 512 + 3).log2 rice.kModifier.toNat := by
  have shifted := toNat_sar_of_small positive
  have three : (3 : Word).toNat = 3 := rfl
  have level : (sar history 9 + 3).toNat = history.toNat / 512 + 3 := by
    rw [BitVec.toNat_add, shifted, three]
    omega
  have nonzero : sar history 9 + 3 ≠ 0 := by
    intro zero
    rw [zero] at level
    cases level
  have low := BitVec.two_pow_sub_clz_le_toNat_of_ne_zero (by decide) nonzero
  have high := BitVec.toNat_lt_two_pow_sub_clz (x := sar history 9 + 3)
  have zeros : (sar history 9 + 3).clz.toNat < 32 := BitVec.clz_lt_iff_ne_zero.mpr nonzero
  have large : history.toNat / 512 + 3 ≠ 0 := by omega
  have logarithm : (history.toNat / 512 + 3).log2 = 31 - (sar history 9 + 3).clz.toNat := by
    rw [Nat.log2_eq_iff large, ← level]
    refine ⟨low, ?_⟩
    rw [show 31 - (sar history 9 + 3).clz.toNat + 1 = 32 - (sar history 9 + 3).clz.toNat by omega]
    exact high
  have counted : countLeadingZeros (sar history 9 + 3) = (sar history 9 + 3).clz := by
    rw [countLeadingZeros, if_neg nonzero]
  rw [RiceParams.k, counted, logarithm]
  generalize (sar history 9 + 3).clz = c at zeros ⊢
  generalize rice.kModifier = m at byte ⊢
  have limit : (31 : Word).toNat = 31 := rfl
  have v : (31 - m - c).toNat = (31 + 2 ^ 32 - m.toNat - c.toNat) % 2 ^ 32 := by
    rw [BitVec.toNat_sub, BitVec.toNat_sub, limit]
    omega
  have sign : (31 - m - c).toInt < 0 ↔ 31 < m.toNat + c.toNat := by
    rw [BitVec.toInt_eq_toNat_cond, v]
    omega
  split
  · rename_i below
    rw [sign] at below
    rw [BitVec.toNat_add, v]
    omega
  · rename_i above
    rw [sign] at above
    omega

end Shairplay.Codec
