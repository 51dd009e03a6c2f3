import Mathlib.Data.Set.Function
import Shairplay.Codec.Alac.Encoder

/-!
# The predictor is a bijection

`errorsOf` is an inverse of the predictor on both sides. A sample and its error differ by the
prediction, which depends on earlier samples and on the coefficients; as long as the samples
so far agree, the coefficients have adapted in the same way, and the next error can be told
from the next sample. So the predictor neither loses nor invents a sequence.
-/

namespace Shairplay.Codec

open Lib Lib.Attempt

/-- The channels of `n` signed values of `r` bits. -/
def Channel (r n : Nat) : Set (List Word) := {xs | xs.length = n ∧ ∀ x ∈ xs, Narrow r x}

section Inversion

variable {r : Nat} (low : 0 < r) (high : r ≤ 32)
include low high

theorem errorOf_predict (prediction : Word) {e : Word} (narrow : Narrow r e) :
    errorOf (BitVec.ofNat 32 r) prediction
      (signExtend32 (prediction + e) (BitVec.ofNat 32 r)) = e := by
  have same : (signExtend32 (prediction + e) (BitVec.ofNat 32 r) - prediction).setWidth r =
      e.setWidth r := by
    rw [signExtend32_eq _ low high, BitVec.sub_eq_add_neg, BitVec.setWidth_add _ _ high,
      setWidth_signExtend _ high, ← BitVec.setWidth_add _ _ high, ← BitVec.sub_eq_add_neg,
      BitVec.add_comm, BitVec.add_sub_cancel]
  rw [errorOf, signExtend32_eq _ low high, same, ← signExtend32_eq _ low high,
    narrow.signExtend32 low high]

theorem deltaErrors_deltaSamples (previous : Word) {errors : List Word}
    (narrow : ∀ e ∈ errors, Narrow r e) :
    deltaErrors (BitVec.ofNat 32 r) previous (deltaSamples (BitVec.ofNat 32 r) previous errors) =
      errors := by
  induction errors generalizing previous with
  | nil => rfl
  | cons e errors ih =>
    rw [List.forall_mem_cons] at narrow
    rw [deltaSamples, deltaErrors, errorOf_predict low high _ narrow.1, ih _ narrow.2]

theorem narrow_deltaSamples (previous : Word) (errors : List Word) :
    ∀ x ∈ deltaSamples (BitVec.ofNat 32 r) previous errors, Narrow r x := by
  induction errors generalizing previous with
  | nil =>
    intro x mem
    cases mem
  | cons e errors ih =>
    rw [deltaSamples, List.forall_mem_cons]
    exact ⟨narrow_signExtend32 _ low high, ih _⟩

/-- Behind the warm-up the predictor appends narrow samples, whose errors are the ones it was
given. The coefficients of both directions agree all along. -/
theorem firRun_inverts (quantitization : Word) (coefNum : Nat) (before : List Word)
    (table : List (BitVec 16)) {errors : List Word} (narrow : ∀ e ∈ errors, Narrow r e) :
    ∃ later, (firRun (BitVec.ofNat 32 r) quantitization coefNum before table errors).1 =
        before ++ later ∧ (∀ x ∈ later, Narrow r x) ∧
      firErrors (BitVec.ofNat 32 r) quantitization coefNum before table later = errors := by
  induction errors generalizing before table with
  | nil => exact ⟨[], by rw [firRun, List.append_nil], by simp, rfl⟩
  | cons e errors ih =>
    rw [List.forall_mem_cons] at narrow
    obtain ⟨x, given⟩ : ∃ x, x = signExtend32 (prediction quantitization
        (windowSum (window coefNum before) table coefNum coefNum) (window coefNum before 0) + e)
        (BitVec.ofNat 32 r) := ⟨_, rfl⟩
    obtain ⟨later, runs, small, inverts⟩ := ih (before ++ [x])
      (adapted (window coefNum before) coefNum quantitization e table) narrow.2
    refine ⟨x :: later, ?_, ?_, ?_⟩
    · rw [firRun, nextSample_eq, ← given, runs, List.append_assoc, List.singleton_append]
    · rw [List.forall_mem_cons]
      refine ⟨?_, small⟩
      rw [given]
      exact narrow_signExtend32 _ low high
    · have error := errorOf_predict low high (prediction quantitization
        (windowSum (window coefNum before) table coefNum coefNum) (window coefNum before 0))
        narrow.1
      rw [← given] at error
      rw [firErrors, error, inverts]

/-- The samples of narrow errors are narrow, and their errors are these. -/
theorem predicted_inverts (quantitization : Word) (coefNum : Nat) (table : List (BitVec 16))
    {errors : List Word} (narrow : ∀ e ∈ errors, Narrow r e) :
    (∀ x ∈ predicted (BitVec.ofNat 32 r) quantitization coefNum table errors, Narrow r x) ∧
      errorsOf (BitVec.ofNat 32 r) quantitization coefNum table
        (predicted (BitVec.ofNat 32 r) quantitization coefNum table errors) = errors := by
  cases errors with
  | nil => exact ⟨by simp [predicted, predictedRun], rfl⟩
  | cons first errors =>
    obtain ⟨head, rest⟩ := List.forall_mem_cons.mp narrow
    rw [predicted, predictedRun]
    split
    · rename_i order
      exact ⟨narrow, by rw [errorsOf, if_pos order]⟩
    · rename_i nonzero
      split
      · rename_i order
        constructor
        · rw [List.forall_mem_cons]
          exact ⟨head, narrow_deltaSamples low high first errors⟩
        · rw [errorsOf, if_neg nonzero, if_pos order, deltaErrors_deltaSamples low high _ rest]
      · rename_i general
        have warm : ∀ e ∈ errors.take coefNum, Narrow r e :=
          fun e mem => rest e (List.mem_of_mem_take mem)
        have cold : ∀ e ∈ errors.drop coefNum, Narrow r e :=
          fun e mem => rest e (List.mem_of_mem_drop mem)
        obtain ⟨later, runs, small, inverts⟩ := firRun_inverts low high quantitization coefNum
          (first :: deltaSamples (BitVec.ofNat 32 r) first (errors.take coefNum)) table cold
        have count := congrArg List.length inverts
        rw [length_firErrors] at count
        have parts := take_drop_append errors coefNum
          (length_deltaSamples (BitVec.ofNat 32 r) first (errors.take coefNum)) count
        rw [runs, List.cons_append]
        constructor
        · rw [List.forall_mem_cons, List.forall_mem_append]
          exact ⟨head, narrow_deltaSamples low high first _, small⟩
        · rw [errorsOf, if_neg nonzero, if_neg general, parts.1, parts.2, inverts,
            deltaErrors_deltaSamples low high _ warm, List.take_append_drop]

theorem predicted_bijOn (quantitization : Word) (coefNum : Nat) (table : List (BitVec 16))
    (n : Nat) :
    Set.BijOn (predicted (BitVec.ofNat 32 r) quantitization coefNum table)
      (Channel r n) (Channel r n) := by
  have inverse : Set.InvOn (errorsOf (BitVec.ofNat 32 r) quantitization coefNum table)
      (predicted (BitVec.ofNat 32 r) quantitization coefNum table) (Channel r n) (Channel r n) := by
    constructor
    · intro errors channel
      exact (predicted_inverts low high quantitization coefNum table channel.2).2
    · intro samples channel
      exact predicted_errorsOf low high quantitization coefNum table channel.2
  apply inverse.bijOn
  · intro errors channel
    refine ⟨?_, (predicted_inverts low high quantitization coefNum table channel.2).1⟩
    rw [length_predicted]
    exact channel.1
  · intro samples channel
    refine ⟨?_, narrow_errorsOf low high quantitization coefNum table channel.2⟩
    rw [length_errorsOf]
    exact channel.1

end Inversion

/-- What `predictor_decompress_fir_adapt` leaves in the front of its output. -/
def decompressed (errorBuffer buffer : List Word) (n : Nat) (readsamplesize quantitization : Word)
    (coefNum : Nat) (table : List (BitVec 16)) (errors : List Word) : List Word :=
  (predictorDecompressFirAdapt (overwrite errors errorBuffer) n readsamplesize coefNum
    quantitization (buffer, table)).2.1.take n

/-- The predictor maps the channels of signed values one-to-one onto themselves, for every
order that fits, every quantization and every table of coefficients, whatever the buffers
held before. -/
theorem predictor_bijective {r m n : Nat} (low : 1 ≤ r) (high : r ≤ 32)
    (long : m < n ∨ m = 31 ∧ 1 ≤ n) (quantitization : Word) {table : List (BitVec 16)}
    (coefficients : m ≤ table.length) {errorBuffer buffer : List Word}
    (roomErrors : n ≤ errorBuffer.length) (room : n ≤ buffer.length) :
    (∀ errors ∈ Channel r n, (predictorDecompressFirAdapt (overwrite errors errorBuffer) n
        (BitVec.ofNat 32 r) m quantitization (buffer, table)).1 = some ()) ∧
      Set.BijOn (decompressed errorBuffer buffer n (BitVec.ofNat 32 r) quantitization m table)
        (Channel r n) (Channel r n) := by
  have fits : OrderFits m n := by
    rcases long with less | delta
    · exact .inr (.inr less)
    · exact .inr (.inl delta.1)
  have runs (errors : List Word) (channel : errors ∈ Channel r n) :
      predictorDecompressFirAdapt (overwrite errors errorBuffer) n (BitVec.ofNat 32 r) m
          quantitization (buffer, table) =
        (some (), overwrite (predicted (BitVec.ofNat 32 r) quantitization m table errors) buffer,
          (predictedRun (BitVec.ofNat 32 r) quantitization m table errors).2) := by
    obtain ⟨rfl, -⟩ := channel
    exact predictorDecompressFirAdapt_run _ _ fits roomErrors room coefficients
  constructor
  · intro errors channel
    rw [runs errors channel]
  · apply (predicted_bijOn low high quantitization m table n).congr
    intro errors channel
    have length := length_predicted (BitVec.ofNat 32 r) quantitization m table errors
    rw [decompressed, runs errors channel, ← channel.1, ← length]
    exact (take_overwrite _ _).symm

/-- Four values of two bits with a predictor of order 1, whose coefficient is adapted twice. -/
theorem predictor_bijective_adapts :
    Set.BijOn (decompressed (List.replicate 4 0) (List.replicate 4 7) 4 2 1 1 [3]) (Channel 2 4)
      (Channel 2 4) ∧
    (predictorDecompressFirAdapt [1, -2, -1, 1] 4 2 1 1 (List.replicate 4 7, [3])).2 =
      ([1, -1, 1, 0], [5]) :=
  ⟨(@predictor_bijective 2 1 4 (by decide) (by decide) (.inl (by decide)) 1 [3] (by decide)
    (List.replicate 4 0) (List.replicate 4 7) (by decide) (by decide)).2, by decide⟩

end Shairplay.Codec
