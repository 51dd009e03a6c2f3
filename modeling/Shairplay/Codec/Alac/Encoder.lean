import Shairplay.Codec.Alac.Reader
import Shairplay.Codec.Alac.Rice
import Shairplay.Codec.Alac.Predictor

/-!
# An encoder for compressed channels

The repository only decodes. This module states the other direction: the prediction errors
of a sequence of samples, and a bit string for a sequence of errors. Every value is coded
with the escape code of the format, which holds a field of the full width, so that the
code does not depend on the Rice parameters. The history of the decoder still decides
where it expects the length of a run of zeros, and the encoder follows it.
-/

namespace Shairplay.Codec

open Lib Lib.Bits

/-- A word that holds a signed number of `n` bits. -/
def Narrow (n : Nat) (x : Word) : Prop := ∃ s : BitVec n, x = s.signExtend 32

/-- The shift that leaves `n` bits of a word. -/
theorem toNat_complement {n : Nat} (low : 0 < n) (high : n ≤ 32) :
    ((32 : Word) - BitVec.ofNat 32 n).toNat % 32 = 32 - n := by
  have given : (BitVec.ofNat 32 n : Word).toNat = n := by
    rw [BitVec.toNat_ofNat]
    omega
  rw [BitVec.toNat_sub_of_le (by rw [BitVec.le_def, given]; exact high), given]
  show (32 - n) % 32 = _
  omega

/-- Sign extension depends on the low bits only. -/
theorem signExtend32_eq (v : Word) {n : Nat} (low : 0 < n) (high : n ≤ 32) :
    signExtend32 v (BitVec.ofNat 32 n) = (v.setWidth n).signExtend 32 := by
  rw [signExtend32, sar, shl, toNat_complement low high]
  apply BitVec.eq_of_getLsbD_eq
  intro i inside
  rw [BitVec.getLsbD_sshiftRight, BitVec.getLsbD_signExtend]
  simp only [BitVec.getLsbD_shiftLeft, BitVec.msb_eq_getLsbD_last, BitVec.getLsbD_setWidth, inside]
  grind

theorem setWidth_signExtend {n m : Nat} (s : BitVec n) (high : n ≤ m) :
    (s.signExtend m).setWidth n = s := by
  apply BitVec.eq_of_getLsbD_eq
  intro i inside
  have below : i < m := by omega
  simp only [BitVec.getLsbD_setWidth, BitVec.getLsbD_signExtend, inside, below, decide_true,
    if_true, Bool.true_and]

section Sizes

variable {n : Nat}

theorem narrow_signExtend32 (v : Word) (low : 0 < n) (high : n ≤ 32) :
    Narrow n (signExtend32 v (BitVec.ofNat 32 n)) :=
  ⟨v.setWidth n, signExtend32_eq v low high⟩

/-- Sign extension does not change a word that is narrow already. -/
theorem Narrow.signExtend32 {x : Word} (narrow : Narrow n x) (low : 0 < n) (high : n ≤ 32) :
    signExtend32 x (BitVec.ofNat 32 n) = x := by
  obtain ⟨s, rfl⟩ := narrow
  rw [signExtend32_eq _ low high, setWidth_signExtend s high]

/-- A word of a smaller width is narrow at the larger one. -/
theorem narrow_of_le {w : Nat} (s : BitVec w) (wide : w ≤ n) : Narrow n (s.signExtend 32) := by
  refine ⟨s.signExtend n, ?_⟩
  apply BitVec.eq_of_getLsbD_eq
  intro i inside
  simp only [BitVec.getLsbD_signExtend, BitVec.msb_eq_getLsbD_last, inside]
  grind

/-- The error of a sample against what was predicted. -/
def errorOf (readsamplesize prediction x : Word) : Word :=
  signExtend32 (x - prediction) readsamplesize

theorem predict_errorOf {prediction x : Word} (narrow : Narrow n x) (low : 0 < n) (high : n ≤ 32) :
    signExtend32 (prediction + errorOf (BitVec.ofNat 32 n) prediction x) (BitVec.ofNat 32 n) =
      x := by
  have same : (prediction + errorOf (BitVec.ofNat 32 n) prediction x).setWidth n =
      x.setWidth n := by
    rw [errorOf, signExtend32_eq _ low high, BitVec.setWidth_add _ _ high,
      setWidth_signExtend _ high, ← BitVec.setWidth_add _ _ high, BitVec.add_comm,
      BitVec.sub_add_cancel]
  rw [signExtend32_eq _ low high, same, ← signExtend32_eq _ low high, narrow.signExtend32 low high]

/-- The errors of samples against the samples before them. -/
def deltaErrors (readsamplesize : Word) : (previous : Word) → List Word → List Word
  | _, [] => []
  | previous, x :: samples =>
    errorOf readsamplesize previous x :: deltaErrors readsamplesize x samples

/-- What the predictor expects from the sum over its window and the base of the window. -/
def prediction (quantitization : Word) (sum : BitVec 64) (base : Word) : Word :=
  let pq := if quantitization.toInt < 0 then 0 else quantitization
  let rounding : BitVec 64 := if pq = 0 then 0 else 1 <<< ((pq - 1).toNat % 64)
  ((rounding + sum).sshiftRight (pq.toNat % 64)).setWidth 32 + base

/-- The errors behind the warm-up; the coefficients adapt as they do in the decoder. -/
def firErrors (readsamplesize quantitization : Word) (coefNum : Nat) :
    (before : List Word) → List (BitVec 16) → List Word → List Word
  | _, _, [] => []
  | before, table, x :: samples =>
    let w := window coefNum before
    let e := errorOf readsamplesize
      (prediction quantitization (windowSum w table coefNum coefNum) (w 0)) x
    e :: firErrors readsamplesize quantitization coefNum (before ++ [x])
      (adapted w coefNum quantitization e table) samples

def errorsOf (readsamplesize quantitization : Word) (coefNum : Nat) (table : List (BitVec 16)) :
    List Word → List Word
  | [] => []
  | first :: samples =>
    if coefNum = 0 then first :: samples
    else if coefNum = 0x1f then first :: deltaErrors readsamplesize first samples
    else first :: (deltaErrors readsamplesize first (samples.take coefNum) ++
      firErrors readsamplesize quantitization coefNum (first :: samples.take coefNum) table
        (samples.drop coefNum))

theorem length_deltaErrors (readsamplesize previous : Word) (samples : List Word) :
    (deltaErrors readsamplesize previous samples).length = samples.length := by
  induction samples generalizing previous with
  | nil => rfl
  | cons x samples ih => rw [deltaErrors, List.length_cons, ih, List.length_cons]

theorem length_firErrors (readsamplesize quantitization : Word) (coefNum : Nat)
    (before : List Word) (table : List (BitVec 16)) (samples : List Word) :
    (firErrors readsamplesize quantitization coefNum before table samples).length =
      samples.length := by
  induction samples generalizing before table with
  | nil => rfl
  | cons x samples ih => rw [firErrors, List.length_cons, ih, List.length_cons]

theorem length_errorsOf (readsamplesize quantitization : Word) (coefNum : Nat)
    (table : List (BitVec 16)) (samples : List Word) :
    (errorsOf readsamplesize quantitization coefNum table samples).length = samples.length := by
  cases samples with
  | nil => rfl
  | cons first samples =>
    rw [errorsOf]
    split
    · rfl
    · split
      · simp [length_deltaErrors]
      · simp [length_deltaErrors, length_firErrors]
        omega

theorem nextSample_eq (readsamplesize quantitization : Word) (sum : BitVec 64) (base error : Word) :
    nextSample readsamplesize quantitization sum base error =
      signExtend32 (prediction quantitization sum base + error) readsamplesize := by
  rw [nextSample, prediction, BitVec.setWidth_add _ _ (by decide),
    BitVec.setWidth_add _ _ (by decide), setWidth_signExtend base (by decide),
    setWidth_signExtend error (by decide), BitVec.add_assoc]

/-- Two lists as long as the parts of a cut one are cut at the same place. -/
theorem take_drop_append {α β : Type} (whole : List α) (count : Nat) {front later : List β}
    (first : front.length = (whole.take count).length)
    (second : later.length = (whole.drop count).length) :
    (front ++ later).take count = front ∧ (front ++ later).drop count = later := by
  rw [List.length_take] at first
  rw [List.length_drop] at second
  by_cases short : whole.length ≤ count
  · obtain rfl : later = [] := List.length_eq_zero_iff.mp (by omega)
    rw [List.append_nil]
    exact ⟨List.take_of_length_le (by omega), List.drop_of_length_le (by omega)⟩
  · exact ⟨List.take_left' (by omega), List.drop_left' (by omega)⟩

section Inversion

variable (low : 0 < n) (high : n ≤ 32)
include low high

theorem deltaSamples_deltaErrors (previous : Word) {samples : List Word}
    (narrow : ∀ x ∈ samples, Narrow n x) :
    deltaSamples (BitVec.ofNat 32 n) previous (deltaErrors (BitVec.ofNat 32 n) previous samples) =
      samples := by
  induction samples generalizing previous with
  | nil => rfl
  | cons x samples ih =>
    rw [List.forall_mem_cons] at narrow
    rw [deltaErrors, deltaSamples, predict_errorOf narrow.1 low high, ih x narrow.2]

/-- The decoder, run on the errors, adapts as the encoder did and restores the samples. -/
theorem firRun_firErrors (quantitization : Word) (coefNum : Nat) (before : List Word)
    (table : List (BitVec 16)) {samples : List Word} (narrow : ∀ x ∈ samples, Narrow n x) :
    (firRun (BitVec.ofNat 32 n) quantitization coefNum before table
      (firErrors (BitVec.ofNat 32 n) quantitization coefNum before table samples)).1 =
      before ++ samples := by
  induction samples generalizing before table with
  | nil => rw [firErrors, firRun, List.append_nil]
  | cons x samples ih =>
    rw [List.forall_mem_cons] at narrow
    rw [firErrors, firRun, nextSample_eq, predict_errorOf narrow.1 low high, ih _ _ narrow.2,
      List.append_assoc, List.singleton_append]

/-- The predictor restores narrow samples from their errors. -/
theorem predicted_errorsOf (quantitization : Word) (coefNum : Nat) (table : List (BitVec 16))
    {samples : List Word} (narrow : ∀ x ∈ samples, Narrow n x) :
    predicted (BitVec.ofNat 32 n) quantitization coefNum table
      (errorsOf (BitVec.ofNat 32 n) quantitization coefNum table samples) = samples := by
  cases samples with
  | nil => rfl
  | cons first samples =>
    have rest := (List.forall_mem_cons.mp narrow).2
    rw [predicted, errorsOf]
    split
    · rename_i order
      rw [predictedRun, if_pos order]
    · rename_i nonzero
      split
      · rename_i order
        rw [predictedRun, if_neg nonzero, if_pos order, deltaSamples_deltaErrors low high _ rest]
      · rename_i general
        have warm : ∀ x ∈ samples.take coefNum, Narrow n x :=
          fun x mem => rest x (List.mem_of_mem_take mem)
        have cold : ∀ x ∈ samples.drop coefNum, Narrow n x :=
          fun x mem => rest x (List.mem_of_mem_drop mem)
        obtain ⟨taken, dropped⟩ := take_drop_append samples coefNum
          (length_deltaErrors (BitVec.ofNat 32 n) first (samples.take coefNum))
          (length_firErrors (BitVec.ofNat 32 n) quantitization coefNum
            (first :: samples.take coefNum) table (samples.drop coefNum))
        rw [predictedRun, if_neg nonzero, if_neg general, taken, dropped,
          deltaSamples_deltaErrors low high _ warm, firRun_firErrors low high _ _ _ _ cold,
          List.cons_append, List.take_append_drop]

theorem narrow_deltaErrors (previous : Word) (samples : List Word) :
    ∀ e ∈ deltaErrors (BitVec.ofNat 32 n) previous samples, Narrow n e := by
  induction samples generalizing previous with
  | nil => intro e mem; cases mem
  | cons x samples ih =>
    rw [deltaErrors, List.forall_mem_cons]
    exact ⟨narrow_signExtend32 _ low high, ih x⟩

theorem narrow_firErrors (quantitization : Word) (coefNum : Nat) (before : List Word)
    (table : List (BitVec 16)) (samples : List Word) :
    ∀ e ∈ firErrors (BitVec.ofNat 32 n) quantitization coefNum before table samples,
      Narrow n e := by
  induction samples generalizing before table with
  | nil => intro e mem; cases mem
  | cons x samples ih =>
    rw [firErrors, List.forall_mem_cons]
    exact ⟨narrow_signExtend32 _ low high, ih _ _⟩

theorem narrow_errorsOf (quantitization : Word) (coefNum : Nat) (table : List (BitVec 16))
    {samples : List Word} (narrow : ∀ x ∈ samples, Narrow n x) :
    ∀ e ∈ errorsOf (BitVec.ofNat 32 n) quantitization coefNum table samples, Narrow n e := by
  cases samples with
  | nil => intro e mem; cases mem
  | cons first samples =>
    rw [errorsOf]
    split
    · exact narrow
    · split
      · rw [List.forall_mem_cons]
        exact ⟨narrow first List.mem_cons_self, narrow_deltaErrors low high _ _⟩
      · rw [List.forall_mem_cons, List.forall_mem_append]
        exact ⟨narrow first List.mem_cons_self, narrow_deltaErrors low high _ _,
          narrow_firErrors low high _ _ _ _ _⟩

end Inversion

end Sizes

/-- The code that `finalValue` decodes: even for positive errors, odd for negative ones. -/
def zigzag (e : Word) : Nat :=
  if 0 ≤ e.toInt then (2 * e.toInt).toNat else (-2 * e.toInt - 1).toNat

def escape (width v : Nat) : List Bool :=
  List.replicate (riceThreshold + 1) true ++ field width v

def zeroRun (errors : List Word) : Nat := (errors.takeWhile (· == 0)).length

def behindZeros (errors : List Word) : List Word := errors.dropWhile (· == 0)

theorem length_behindZeros_le (errors : List Word) : (behindZeros errors).length ≤ errors.length :=
  (List.dropWhile_sublist _).length_le

/-- The code of the errors of a channel. Behind a value that lets the history drop, the
decoder expects the number of zeros that follow; a value behind that number is not zero
and is coded one lower. -/
def riceCode (n : Nat) (rice : RiceParams) :
    (history signModifier : Word) → List Word → List Bool
  | _, _, [] => []
  | history, signModifier, e :: errors =>
    let next := rice.nextHistory history (BitVec.ofNat 32 (zigzag e))
    escape n (zigzag e - signModifier.toNat) ++
      if next.toInt < 128 ∧ 0 < errors.length then
        escape 16 (zeroRun errors) ++ riceCode n rice 0 1 (behindZeros errors)
      else riceCode n rice next 0 errors
  termination_by _ _ errors => errors.length
  decreasing_by
  · exact Nat.lt_succ_of_le (length_behindZeros_le errors)
  · exact Nat.lt_succ_self _

section Codes

variable {buf : List UInt8} {q n : Nat}

theorem length_escape (width v : Nat) : (escape width v).length = 9 + width := by
  rw [escape, List.length_append, List.length_replicate, length_field, riceThreshold]

theorem readUnary_ones (room : Nat) (x : Word) (held : Holds buf q (List.replicate room true)) :
    readUnary room x (.seek buf q) = (x + BitVec.ofNat 32 room, .seek buf (q + room)) := by
  induction room generalizing x q with
  | zero => simp [readUnary]
  | succ room ih =>
    rw [List.replicate_succ, holds_cons] at held
    rw [readUnary, BitReader.readbit_seek, held.1]
    dsimp only
    rw [if_pos rfl, if_pos (by decide), ih _ held.2, Nat.add_right_comm, Nat.add_assoc,
      BitVec.ofNat_add, BitVec.add_assoc, BitVec.add_comm 1 _]
    rfl

/-- The escape code of a value is decoded, whatever the Rice parameter is. -/
theorem entropyDecodeValue_escape {v : Nat} (k mask : Word) (held : Holds buf q (escape n v))
    (low : 0 < n) (high : n ≤ 32) (fits : v < 2 ^ n) :
    entropyDecodeValue (BitVec.ofNat 32 n) k mask (.seek buf q) =
      (BitVec.ofNat 32 v, .seek buf (q + (escape n v).length)) := by
  obtain ⟨ones, rest⟩ := holds_append.mp held
  rw [List.length_replicate] at rest
  have masked : (BitVec.ofNat 32 v : Word) &&& shr 0xffffffff (32 - BitVec.ofNat 32 n) =
      BitVec.ofNat 32 v := by
    have full : (0xffffffff : Word) = BitVec.allOnes 32 := by decide
    rw [shr, toNat_complement low high, full]
    apply BitVec.eq_of_getLsbD_eq
    intro i inside
    rw [BitVec.getLsbD_and, BitVec.getLsbD_ushiftRight, BitVec.getLsbD_allOnes]
    by_cases below : i < n
    · rw [decide_eq_true (by omega), Bool.and_true]
    · have zero : v.testBit i = false := Nat.testBit_lt_two_pow
        (Nat.lt_of_lt_of_le fits (Nat.pow_le_pow_right (by decide) (by omega)))
      rw [BitVec.getLsbD_ofNat, zero, Bool.and_false, Bool.false_and]
  rw [entropyDecodeValue, readUnary_ones _ _ ones]
  dsimp only
  rw [if_pos (by decide), BitReader.readbits_field n rest high fits]
  dsimp only
  rw [masked, length_escape, riceThreshold, Nat.add_assoc]

theorem zigzag_lt {e : Word} (narrow : Narrow n e) (low : 0 < n) (high : n ≤ 32) :
    zigzag e < 2 ^ n := by
  obtain ⟨s, rfl⟩ := narrow
  have below := s.le_toInt
  have above := s.toInt_lt
  have double : (2 : Int) ^ n = 2 * 2 ^ (n - 1) := by
    rw [← pow_succ', Nat.sub_add_cancel low]
  have cast : ((2 ^ n : Nat) : Int) = 2 ^ n := by simp
  rw [zigzag, BitVec.toInt_signExtend_of_le high]
  split <;> omega

theorem zigzag_pos {e : Word} (nonzero : e ≠ 0) : 0 < zigzag e := by
  have value : e.toInt ≠ 0 := fun h => nonzero (BitVec.toInt_inj.mp h)
  rw [zigzag]
  split <;> omega

/-- The decoder finds the error behind its code. -/
theorem finalValue_zigzag {e : Word} (narrow : Narrow n e) (low : 0 < n) (high : n ≤ 25) :
    finalValue (BitVec.ofNat 32 (zigzag e)) = e := by
  have bound := zigzag_lt narrow low (by omega)
  have limit : 2 ^ n ≤ 2 ^ 25 := Nat.pow_le_pow_right (by decide) high
  have code : (BitVec.ofNat 32 (zigzag e) : Word).toNat = zigzag e := by
    rw [BitVec.toNat_ofNat]
    omega
  have sum : (BitVec.ofNat 32 (zigzag e) + 1 : Word).toNat = zigzag e + 1 := by
    rw [BitVec.toNat_add, code]
    show (zigzag e + 1) % 2 ^ 32 = _
    omega
  have half : ((BitVec.ofNat 32 (zigzag e) + 1 : Word).sdiv 2).toNat = (zigzag e + 1) / 2 := by
    have positive : (BitVec.ofNat 32 (zigzag e) + 1 : Word).msb = false := by
      rw [BitVec.msb_eq_false_iff_two_mul_lt, sum]
      omega
    rw [BitVec.sdiv_eq, positive, show (2 : Word).msb = false from rfl]
    show ((BitVec.ofNat 32 (zigzag e) + 1 : Word) / 2).toNat = _
    rw [BitVec.toNat_udiv, sum]
    rfl
  have parity : (BitVec.ofNat 32 (zigzag e) &&& 1 : Word).toNat = zigzag e % 2 := by
    rw [BitVec.toNat_and, code]
    exact Nat.and_one_is_mod _
  have integer : e.toInt = e.toNat ∨ e.toInt = (e.toNat : Int) - 2 ^ 32 := by
    rw [BitVec.toInt_eq_toNat_cond]
    split
    · exact .inl rfl
    · exact .inr (by norm_num)
  have size := e.isLt
  rw [finalValue]
  split
  · rename_i odd
    have odd : zigzag e % 2 ≠ 0 := fun h => odd (BitVec.eq_of_toNat_eq (parity.trans h))
    apply BitVec.eq_of_toNat_eq
    rw [BitVec.toNat_neg, half]
    rw [zigzag] at odd ⊢
    split at odd <;> rename_i sign
    · omega
    · rw [if_neg sign]
      omega
  · rename_i even
    have even : zigzag e % 2 = 0 := by
      rw [← parity, not_not.mp even]
      rfl
    apply BitVec.eq_of_toNat_eq
    rw [half]
    rw [zigzag] at even ⊢
    split at even <;> rename_i sign
    · rw [if_pos sign]
      omega
    · omega

/-- A list is its zeros and what stands behind them. -/
theorem zeros_append (errors : List Word) :
    List.replicate (zeroRun errors) 0 ++ behindZeros errors = errors := by
  have zeros : errors.takeWhile (· == 0) = List.replicate (zeroRun errors) (0 : Word) := by
    rw [List.eq_replicate_iff]
    refine ⟨rfl, fun e mem => ?_⟩
    have all := List.all_takeWhile (p := (· == (0 : Word))) (l := errors)
    simpa using List.all_eq_true.mp all e mem
  rw [← zeros, behindZeros, List.takeWhile_append_dropWhile]

theorem zigzag_behindZeros {errors : List Word} {e : Word}
    (first : e ∈ (behindZeros errors).head?) : 0 < zigzag e := by
  have stop := List.head?_dropWhile_not (· == (0 : Word)) errors
  rw [Option.mem_def, behindZeros] at first
  rw [first] at stop
  exact zigzag_pos (by simpa using stop)

theorem run_of_zeros {zeros count : Nat} (inside : zeros ≤ count) (short : count < 65536) :
    runLength (BitVec.ofNat 32 zeros) count = zeros ∧ signAfter (BitVec.ofNat 32 zeros) = 1 := by
  have word : (BitVec.ofNat 32 zeros : Word).toNat = zeros := by
    rw [BitVec.toNat_ofNat]
    omega
  have integer : (BitVec.ofNat 32 zeros : Word).toInt = zeros := by
    rw [BitVec.toInt_eq_toNat_of_lt (by omega), word]
  rw [runLength, signAfter, integer, word]
  constructor
  · split <;> omega
  · rw [if_neg (by omega)]

/-- The decoder restores narrow errors from their code and stops behind it. -/
theorem riceValues_riceCode (low : 0 < n) (high : n ≤ 25) (rice : RiceParams) {errors : List Word}
    (history signModifier : Word) (narrow : ∀ e ∈ errors, Narrow n e)
    (short : errors.length ≤ 65536) (sign : ∀ e ∈ errors.head?, signModifier.toNat ≤ zigzag e)
    (held : Holds buf q (riceCode n rice history signModifier errors)) :
    riceValues (BitVec.ofNat 32 n) rice errors.length history signModifier (.seek buf q) =
      (errors, .seek buf (q + (riceCode n rice history signModifier errors).length)) := by
  induction count : errors.length using Nat.strongRecOn generalizing errors history signModifier q
    with
  | ind count ih =>
    subst count
    cases errors with
    | nil => simp [riceValues, riceCode]
    | cons e errors =>
      rw [List.forall_mem_cons] at narrow
      rw [List.length_cons] at short
      have coded := sign e rfl
      rw [riceCode] at held ⊢
      obtain ⟨value, held⟩ := holds_append.mp held
      have bound := zigzag_lt narrow.1 low (by omega)
      have decoded : (BitVec.ofNat 32 (zigzag e - signModifier.toNat) + signModifier : Word) =
          BitVec.ofNat 32 (zigzag e) := by
        have word : signModifier = BitVec.ofNat 32 signModifier.toNat := by simp
        conv_lhs => rw [word]
        rw [BitVec.toNat_ofNat, ← BitVec.ofNat_add, Nat.mod_eq_of_lt signModifier.isLt,
          Nat.sub_add_cancel coded]
      rw [List.length_cons, riceValues,
        entropyDecodeValue_escape _ _ value low (by omega) (by omega)]
      dsimp only
      rw [decoded, finalValue_zigzag narrow.1 low high]
      split
      · -- the decoder reads the length of a run of zeros
        rename_i run
        rw [if_pos run] at held
        obtain ⟨length, held⟩ := holds_append.mp held
        have zeros := zeros_append errors
        have total := congrArg List.length zeros
        rw [List.length_append, List.length_replicate] at total
        obtain ⟨covered, after⟩ :=
          run_of_zeros (show zeroRun errors ≤ errors.length by omega) (by omega)
        have block := entropyDecodeValue_escape (zeroRunK
          (rice.nextHistory history (BitVec.ofNat 32 (zigzag e)))) rice.kModifierMask length
          (by decide) (by decide) (by omega)
        have left : errors.length - zeroRun errors = (behindZeros errors).length := by omega
        have behind : ∀ e ∈ behindZeros errors, Narrow n e :=
          fun e mem => narrow.2 e ((List.dropWhile_sublist _).mem mem)
        have goes := ih (behindZeros errors).length (by rw [List.length_cons]; omega) 0 1
          behind (by omega) (fun e first => zigzag_behindZeros first) held rfl
        rw [show (16 : Word) = BitVec.ofNat 32 16 from rfl, block]
        dsimp only
        rw [covered, after, left, goes]
        dsimp only
        rw [zeros]
        simp only [List.length_append, Nat.add_assoc]
      · rename_i run
        rw [if_neg run] at held
        have goes := ih errors.length (by simp) _ 0 narrow.2 (by omega)
          (fun e _ => Nat.zero_le _) held rfl
        rw [goes]
        simp only [List.length_append, Nat.add_assoc]

end Codes

end Shairplay.Codec
