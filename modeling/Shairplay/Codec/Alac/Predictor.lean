import Shairplay.Codec.Alac

/-!
# What the predictor writes

`predicted` is the sequence of samples that a sequence of prediction errors stands for.
A sample depends on the window of samples before it and on the coefficients, which the
errors themselves adapt. The loops of the source write this sequence to the front of
their buffer, if the order of the predictor fits the number of samples; if it does not
fit, they panic.
-/

namespace Shairplay.Codec

open Lib Lib.Attempt

/-- Each sample is the sample before it plus an error. -/
def deltaSamples (readsamplesize : Word) : (previous : Word) → List Word → List Word
  | _, [] => []
  | previous, e :: errors =>
    signExtend32 (previous + e) readsamplesize ::
      deltaSamples readsamplesize (signExtend32 (previous + e) readsamplesize) errors

/-- The first terms of the weighted sum over a window. -/
def windowSum (w : Nat → Word) (table : List (BitVec 16)) (coefNum : Nat) : Nat → BitVec 64
  | 0 => 0
  | j + 1 => windowSum w table coefNum j +
      (w (coefNum - j) - w 0).signExtend 64 * (table.getD j 0).signExtend 64

/-- The coefficients after the loop of one direction. -/
def adaptTable (w : Nat → Word) (coefNum : Nat) (quantitization : Word) (d : Direction) :
    (pn : Nat) → (ev : Word) → List (BitVec 16) → List (BitVec 16)
  | 0, _, table => table
  | pn + 1, ev, table =>
    if d.goesOn ev then
      let val := w 0 - w (coefNum - pn)
      adaptTable w coefNum quantitization d pn
        (ev - sar (val * d.sign val) quantitization * BitVec.ofNat 32 (coefNum - pn))
        (table.set pn (table.getD pn 0 - (d.sign val).setWidth 16))
    else table

def adapted (w : Nat → Word) (coefNum : Nat) (quantitization error : Word)
    (table : List (BitVec 16)) : List (BitVec 16) :=
  if 0 < error.toInt then adaptTable w coefNum quantitization upward coefNum error table
  else if error.toInt < 0 then adaptTable w coefNum quantitization downward coefNum error table
  else table

/-- The last `coefNum + 1` of the samples so far. -/
def window (coefNum : Nat) (samples : List Word) (j : Nat) : Word :=
  samples.getD (samples.length - (coefNum + 1) + j) 0

/-- The samples and coefficients after a sequence of errors. -/
def firRun (readsamplesize quantitization : Word) (coefNum : Nat) :
    (samples : List Word) → List (BitVec 16) → List Word → List Word × List (BitVec 16)
  | samples, table, [] => (samples, table)
  | samples, table, e :: errors =>
    let w := window coefNum samples
    firRun readsamplesize quantitization coefNum
      (samples ++ [nextSample readsamplesize quantitization (windowSum w table coefNum coefNum)
        (w 0) e])
      (adapted w coefNum quantitization e table) errors

/-- The samples of a channel and the coefficients after it. The order 31 stands for plain
differences, the order 0 for no prediction. -/
def predictedRun (readsamplesize quantitization : Word) (coefNum : Nat) (table : List (BitVec 16)) :
    List Word → List Word × List (BitVec 16)
  | [] => ([], table)
  | first :: errors =>
    if coefNum = 0 then (first :: errors, table)
    else if coefNum = 0x1f then (first :: deltaSamples readsamplesize first errors, table)
    else firRun readsamplesize quantitization coefNum
      (first :: deltaSamples readsamplesize first (errors.take coefNum)) table
      (errors.drop coefNum)

/-- The samples of a channel. -/
def predicted (readsamplesize quantitization : Word) (coefNum : Nat) (table : List (BitVec 16))
    (errors : List Word) : List Word :=
  (predictedRun readsamplesize quantitization coefNum table errors).1

/-- The order of a predictor fits the number of samples. -/
def OrderFits (coefNum outputSize : Nat) : Prop :=
  coefNum = 0 ∨ coefNum = 0x1f ∨ coefNum < outputSize

instance (coefNum outputSize : Nat) : Decidable (OrderFits coefNum outputSize) :=
  inferInstanceAs (Decidable (_ ∨ _ ∨ _))

variable (readsamplesize quantitization : Word)

@[simp] theorem length_deltaSamples (previous : Word) (errors : List Word) :
    (deltaSamples readsamplesize previous errors).length = errors.length := by
  induction errors generalizing previous with
  | nil => rfl
  | cons e errors ih => simp [deltaSamples, ih]

@[simp] theorem length_adaptTable (w : Nat → Word) (coefNum : Nat) (d : Direction) (pn : Nat)
    (ev : Word) (table : List (BitVec 16)) :
    (adaptTable w coefNum quantitization d pn ev table).length = table.length := by
  induction pn generalizing ev table with
  | zero => rfl
  | succ pn ih =>
    rw [adaptTable]
    split
    · rw [ih, List.length_set]
    · rfl

@[simp] theorem length_adapted (w : Nat → Word) (coefNum : Nat) (error : Word)
    (table : List (BitVec 16)) :
    (adapted w coefNum quantitization error table).length = table.length := by
  rw [adapted]
  split
  · exact length_adaptTable ..
  · split
    · exact length_adaptTable ..
    · rfl

theorem length_firRun (coefNum : Nat) (samples : List Word) (table : List (BitVec 16))
    (errors : List Word) :
    (firRun readsamplesize quantitization coefNum samples table errors).1.length =
      samples.length + errors.length := by
  induction errors generalizing samples table with
  | nil => rfl
  | cons e errors ih =>
    rw [firRun, ih, List.length_append, List.length_singleton, List.length_cons]
    omega

theorem length_predicted (coefNum : Nat) (table : List (BitVec 16)) (errors : List Word) :
    (predicted readsamplesize quantitization coefNum table errors).length = errors.length := by
  cases errors with
  | nil => rfl
  | cons first errors =>
    rw [predicted, predictedRun]
    split
    · rfl
    · split
      · simp
      · rw [length_firRun]
        simp only [List.length_cons, length_deltaSamples, List.length_take, List.length_drop]
        omega

/-- Each difference is added to the sample before. -/
theorem deltaSamples_next {previous : Word} {errors done : List Word} {v : Word}
    (h : done ++ [v] <+: deltaSamples readsamplesize previous errors) :
    ∃ x e, (previous :: done)[done.length]? = some x ∧ errors[done.length]? = some e ∧
      v = signExtend32 (x + e) readsamplesize := by
  induction done generalizing previous errors with
  | nil =>
    cases errors with
    | nil => simp [deltaSamples] at h
    | cons e errors =>
      rw [deltaSamples, List.nil_append, List.cons_prefix_cons] at h
      exact ⟨previous, e, rfl, rfl, h.1⟩
  | cons d done ih =>
    cases errors with
    | nil => simp [deltaSamples] at h
    | cons e errors =>
      rw [deltaSamples, List.cons_append, List.cons_prefix_cons] at h
      obtain ⟨rfl, h⟩ := h
      obtain ⟨x, e', last, error, value⟩ := ih h
      exact ⟨x, e', by simpa using last, by simpa using error, value⟩

section Windows

variable {w : Nat → Word} {coefNum off : Nat} {buffer : List Word} {table : List (BitVec 16)}

/-- The buffer holds the window at an offset. -/
def Shows (buffer : List Word) (off coefNum : Nat) (w : Nat → Word) : Prop :=
  ∀ j ≤ coefNum, buffer[off + j]? = some (w j)

theorem Shows.base (shows : Shows buffer off coefNum w) : buffer[off]? = some (w 0) :=
  shows 0 (Nat.zero_le _)

theorem bufferOut_bind {α : Type} {i : Nat} {x : Word} (h : buffer[i]? = some x)
    (f : Word → Predictor α) : (bufferOut i >>= f) (buffer, table) = f x (buffer, table) := by
  exact bind_of_some (by rw [bufferOut, h]) f

theorem coefficient_bind {α : Type} {i : Nat} (h : i < table.length) (f : BitVec 16 → Predictor α) :
    (coefficient i >>= f) (buffer, table) = f (table.getD i 0) (buffer, table) := by
  apply bind_of_some
  simp [coefficient, h]

theorem onTable_bind {α : Type} {i : Nat} (h : i < table.length) (c : BitVec 16)
    (f : Unit → Predictor α) :
    (onTable (.write i c) >>= f) (buffer, table) = f () (buffer, table.set i c) := by
  apply bind_of_some
  rw [onTable, focus_run, write, if_pos h]

theorem onBuffer_bind {α : Type} {samples : List Word} (room : samples.length < buffer.length)
    (v : Word) (f : Unit → Predictor α) :
    (onBuffer (.write samples.length v) >>= f) (overwrite samples buffer, table) =
      f () (overwrite (samples ++ [v]) buffer, table) := by
  apply bind_of_some
  rw [onBuffer, focus_run, write_overwrite v room]

theorem predictorSum_run (shows : Shows buffer off coefNum w) (fits : coefNum ≤ table.length) :
    predictorSum coefNum off (buffer, table) =
      (some (windowSum w table coefNum coefNum), buffer, table) := by
  refine (foldRange_follows (fun _ => (buffer, table)) (windowSum w table coefNum) ?_).trans
    (by rw [Nat.zero_add])
  intro j _ high
  have inside : off + coefNum - j = off + (coefNum - j) := by omega
  rw [inside, bufferOut_bind (shows (coefNum - j) (by omega)), bufferOut_bind shows.base,
    coefficient_bind (by omega)]
  rfl

theorem adaptLoop_run (d : Direction) (shows : Shows buffer off coefNum w) (pn : Nat)
    (below : pn ≤ coefNum) (ev : Word) (table : List (BitVec 16)) (fits : coefNum ≤ table.length) :
    adaptLoop coefNum off quantitization d pn ev (buffer, table) =
      (some (), buffer, adaptTable w coefNum quantitization d pn ev table) := by
  induction pn generalizing ev table with
  | zero => rfl
  | succ pn ih =>
    rw [adaptLoop, adaptTable]
    split
    · have inside : off + coefNum - pn = off + (coefNum - pn) := by omega
      rw [inside, bufferOut_bind shows.base,
        bufferOut_bind (shows (coefNum - pn) (by omega)), coefficient_bind (by omega)]
      dsimp only
      rw [onTable_bind (by omega)]
      exact ih (by omega) _ _ (by simpa using fits)
    · rfl

/-- Both directions of the adaptation in one statement. -/
theorem adapted_run (error : Word) (shows : Shows buffer off coefNum w)
    (fits : coefNum ≤ table.length) :
    (if 0 < error.toInt then adaptLoop coefNum off quantitization upward coefNum error
      else if error.toInt < 0 then adaptLoop coefNum off quantitization downward coefNum error
      else pure ()) (buffer, table) =
      (some (), buffer, adapted w coefNum quantitization error table) := by
  rw [adapted]
  split
  · exact adaptLoop_run quantitization upward shows coefNum le_rfl error table fits
  · split
    · exact adaptLoop_run quantitization downward shows coefNum le_rfl error table fits
    · rfl

/-- The written part of a buffer shows its last window, also behind further samples. -/
theorem shows_window {samples : List Word} (long : coefNum < samples.length)
    (more buffer : List Word) :
    Shows (overwrite (samples ++ more) buffer) (samples.length - (coefNum + 1)) coefNum
      (window coefNum samples) := by
  intro j inside
  have index : samples.length - (coefNum + 1) + j < samples.length := by omega
  rw [getElem?_overwrite (by simp; omega), List.getElem?_append_left index, window,
    List.getD_eq_getElem?_getD, List.getElem?_eq_getElem index]
  rfl

theorem predictorRound_run {samples : List Word} (long : coefNum < samples.length)
    (room : samples.length < buffer.length) (fits : coefNum ≤ table.length) (error : Word) :
    predictorRound readsamplesize quantitization coefNum (samples.length - (coefNum + 1)) error
        (overwrite samples buffer, table) =
      (some (), overwrite (samples ++ [nextSample readsamplesize quantitization
          (windowSum (window coefNum samples) table coefNum coefNum)
          (window coefNum samples 0) error]) buffer,
        adapted (window coefNum samples) coefNum quantitization error table) := by
  have before : Shows (overwrite samples buffer) (samples.length - (coefNum + 1)) coefNum
      (window coefNum samples) := by
    simpa using shows_window long [] buffer
  have position : samples.length - (coefNum + 1) + coefNum + 1 = samples.length := by omega
  rw [predictorRound, bind_of_some (predictorSum_run before fits),
    bufferOut_bind before.base, position, onBuffer_bind room]
  exact adapted_run quantitization error (shows_window long _ _) fits

theorem predictorRounds_run (samples : List Word) (table : List (BitVec 16))
    (long : coefNum < samples.length) (errors : List Word)
    (room : samples.length + errors.length ≤ buffer.length) (fits : coefNum ≤ table.length) :
    forEnum (predictorRound readsamplesize quantitization coefNum)
        (samples.length - (coefNum + 1)) errors (overwrite samples buffer, table) =
      (some (), overwrite
          (firRun readsamplesize quantitization coefNum samples table errors).1 buffer,
        (firRun readsamplesize quantitization coefNum samples table errors).2) := by
  induction errors generalizing samples table with
  | nil => rfl
  | cons e errors ih =>
    rw [List.length_cons] at room
    rw [forEnum, bind_of_some (predictorRound_run _ _ long (by omega) fits e), firRun]
    have next := ih (samples ++ [nextSample readsamplesize quantitization
        (windowSum (window coefNum samples) table coefNum coefNum)
        (window coefNum samples 0) e])
      (adapted (window coefNum samples) coefNum quantitization e table)
      (by simp; omega) (by simp; omega) (by simpa using fits)
    rwa [List.length_append, List.length_singleton,
      show samples.length + 1 - (coefNum + 1) = samples.length - (coefNum + 1) + 1 by omega]
      at next

end Windows

/-- The warm-up, and the whole of order 31. -/
theorem deltaRounds_run (first : Word) (errors errorBuffer buffer : List Word)
    (table : List (BitVec 16)) (count : Nat) (enough : count ≤ errors.length)
    (room : count < buffer.length) :
    forRange count (deltaRound (overwrite (first :: errors) errorBuffer) readsamplesize)
        (overwrite [first] buffer, table) =
      (some (), overwrite (first :: deltaSamples readsamplesize first (errors.take count)) buffer,
        table) := by
  have length : (deltaSamples readsamplesize first (errors.take count)).length = count := by
    simp [enough]
  have loop : forRange (deltaSamples readsamplesize first (errors.take count)).length
      (deltaRound (overwrite (first :: errors) errorBuffer) readsamplesize)
      (overwrite [first] buffer, table) =
      (some (), overwrite (first :: deltaSamples readsamplesize first (errors.take count)) buffer,
        table) := by
    refine forRange_append (fun done => (overwrite (first :: done) buffer, table)) _ ?_
    intro done v before
    have short : done.length < count := by
      have := before.length_le
      rw [length, List.length_append, List.length_singleton] at this
      omega
    obtain ⟨x, e, last, error, rfl⟩ := deltaSamples_next readsamplesize before
    have here : (overwrite (first :: done) buffer)[done.length]? = some x := by
      rw [getElem?_overwrite (by simp), last]
    have there : (overwrite (first :: errors) errorBuffer)[done.length + 1]? = some e := by
      rw [getElem?_overwrite (by simp; omega), List.getElem?_cons_succ]
      rwa [List.getElem?_take_of_lt short] at error
    have written : write (first :: done).length (signExtend32 (x + e) readsamplesize)
        (overwrite (first :: done) buffer) = _ := write_overwrite _ (by simp; omega)
    rw [deltaRound, bufferOut_bind here, bind_of_some (by rw [index, there]), onBuffer, focus_run]
    rw [List.length_cons] at written
    rw [written]
    rfl
  rwa [length] at loop

section Whole

variable {coefNum outputSize : Nat} {errors errorBuffer buffer : List Word}
  {table : List (BitVec 16)}

/-- A predictor whose order fits stays inside its buffers and overwrites the front of its
output with the samples of the errors. -/
theorem predictorDecompressFirAdapt_run (fits : OrderFits coefNum errors.length)
    (roomErrors : errors.length ≤ errorBuffer.length) (room : errors.length ≤ buffer.length)
    (coefficients : coefNum ≤ table.length) :
    predictorDecompressFirAdapt (overwrite errors errorBuffer) errors.length readsamplesize
        coefNum quantitization (buffer, table) =
      (some (), overwrite (predicted readsamplesize quantitization coefNum table errors) buffer,
        (predictedRun readsamplesize quantitization coefNum table errors).2) := by
  cases errors with
  | nil => simp [predictorDecompressFirAdapt, predicted, predictedRun]
  | cons first errors =>
    have nonempty : ¬ ((first :: errors).length = 0 ∨
        overwrite (first :: errors) errorBuffer = [] ∨ buffer = []) := by
      rw [List.length_cons] at room
      rintro (h | h | rfl)
      · simp at h
      · simp [overwrite] at h
      · simp at room
    have head : index (overwrite (first :: errors) errorBuffer) 0 (buffer, table) =
        (some first, buffer, table) := by
      rw [index, getElem?_overwrite (by simp)]
      rfl
    have taken : (overwrite (first :: errors) errorBuffer).take (first :: errors).length =
        first :: errors := take_overwrite _ _
    have long : (overwrite (first :: errors) errorBuffer).length = errorBuffer.length :=
      length_overwrite roomErrors
    have start : ∀ f : Unit → Predictor Unit,
        (onBuffer (.write 0 first) >>= f) (buffer, table) =
          f () (overwrite [first] buffer, table) := by
      have empty : ([] : List Word).length < buffer.length := by simp at room ⊢; omega
      exact onBuffer_bind empty first
    rw [predictorDecompressFirAdapt, view_bind, if_neg nonempty, bind_of_some head, start,
      predicted, predictedRun]
    split
    · -- order 0
      split
      · rename_i h
        rw [List.length_cons] at h
        obtain rfl : errors = [] := List.eq_nil_of_length_eq_zero (by omega)
        rfl
      · rw [bind_of_some (slice_run (by simp) (by omega) _), taken, onBuffer, focus_run]
        have written : writeSlice [first].length errors (overwrite [first] buffer) = _ :=
          writeSlice_overwrite errors (by simp at room ⊢; omega)
        rw [List.length_singleton] at written
        rw [List.drop_one, List.tail_cons, written]
        rfl
    · split
      · -- order 31
        split
        · rename_i h
          rw [List.length_cons] at h
          obtain rfl : errors = [] := List.eq_nil_of_length_eq_zero (by omega)
          rfl
        · have run := deltaRounds_run readsamplesize first errors errorBuffer buffer table
            errors.length le_rfl (by simp at room; omega)
          rw [List.length_cons, Nat.add_sub_cancel, run, List.take_length]
      · -- the general case
        have short : coefNum ≤ errors.length := by
          rcases fits with h | h | h
          · contradiction
          · contradiction
          · simpa using Nat.lt_succ_iff.mp h
        have warmup := deltaRounds_run readsamplesize first errors errorBuffer buffer table
          coefNum short (by simp at room; omega)
        rw [bind_of_some warmup, bind_of_some (slice_run (by simp; omega) (by omega) _), taken,
          List.drop_succ_cons]
        have warm : (first :: deltaSamples readsamplesize first (errors.take coefNum)).length =
            coefNum + 1 := by
          simp [short]
        have main := predictorRounds_run readsamplesize quantitization
          (first :: deltaSamples readsamplesize first (errors.take coefNum)) table
          (by omega) (errors.drop coefNum)
          (show _ ≤ buffer.length by rw [warm, List.length_drop]; simp at room; omega)
          coefficients
        rwa [warm, Nat.sub_self] at main

/-- A predictor that returns from a buffer with samples had a fitting order. -/
theorem orderFits_of_isSome (samples : 0 < outputSize) (nonempty : errorBuffer ≠ [])
    (nonempty' : buffer ≠ [])
    (returns : (predictorDecompressFirAdapt errorBuffer outputSize readsamplesize coefNum
      quantitization (buffer, table)).1.isSome) : OrderFits coefNum outputSize := by
  have checked : ¬ (outputSize = 0 ∨ errorBuffer = [] ∨ buffer = []) := by
    rintro (h | h | h)
    · omega
    · exact nonempty h
    · exact nonempty' h
  rw [predictorDecompressFirAdapt, view_bind, if_neg checked] at returns
  obtain ⟨_, _, -, returns⟩ := isSome_bind returns
  obtain ⟨_, _, -, returns⟩ := isSome_bind returns
  split at returns
  · exact .inl ‹_›
  · split at returns
    · exact .inr (.inl ‹_›)
    · obtain ⟨_, _, -, returns⟩ := isSome_bind returns
      obtain ⟨errors, s, sliced, -⟩ := isSome_bind returns
      have bounds := isSome_slice (by rw [sliced]; rfl)
      exact .inr (.inr bounds.1)

end Whole

end Shairplay.Codec
