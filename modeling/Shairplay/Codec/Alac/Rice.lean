import Shairplay.Codec.Alac

/-!
# What the Rice decoder writes

`riceValues` is the sequence of prediction errors that a reader holds, without buffers
and indices. The loop of the source writes exactly this sequence to the front of its
buffer, whatever the buffer held before, and never leaves it.
-/

namespace Shairplay.Codec

open Lib Lib.Attempt

/-- How many of the next `count` values a run of zeros covers. -/
def runLength (blockSize : Word) (count : Nat) : Nat :=
  if 0 < blockSize.toInt then min blockSize.toNat count else 0

/-- The sign modifier behind a run of zeros. -/
def signAfter (blockSize : Word) : Word := if 0xFFFF < blockSize.toInt then 0 else 1

/-- The next `count` values of a channel, and the reader behind them. -/
def riceValues (readSampleSize : Word) (rice : RiceParams) :
    (count : Nat) → (history signModifier : Word) → BitReader → List Word × BitReader
  | 0, _, _, r => ([], r)
  | count + 1, history, signModifier, r =>
    let (value, r) := entropyDecodeValue readSampleSize (rice.k history) 0xFFFFFFFF r
    let decodedValue := value + signModifier
    let history := rice.nextHistory history decodedValue
    if history.toInt < 128 ∧ 0 < count then
      let (blockSize, r) := entropyDecodeValue 16 (zeroRunK history) rice.kModifierMask r
      let zeros := runLength blockSize count
      let rest := riceValues readSampleSize rice (count - zeros) 0 (signAfter blockSize) r
      (finalValue decodedValue :: (List.replicate zeros 0 ++ rest.1), rest.2)
    else
      let rest := riceValues readSampleSize rice count history 0 r
      (finalValue decodedValue :: rest.1, rest.2)
  termination_by count => count
  decreasing_by
  · exact Nat.lt_succ_of_le (Nat.sub_le _ _)
  · exact Nat.lt_succ_self _

theorem runLength_le (blockSize : Word) (count : Nat) : runLength blockSize count ≤ count := by
  rw [runLength]
  split
  · exact Nat.min_le_right _ _
  · exact Nat.zero_le _

variable (readSampleSize : Word) (rice : RiceParams)

@[simp] theorem length_riceValues (count : Nat) (history signModifier : Word) (r : BitReader) :
    (riceValues readSampleSize rice count history signModifier r).1.length = count := by
  induction count using Nat.strongRecOn generalizing history signModifier r with
  | ind count ih =>
    cases count with
    | zero => simp [riceValues]
    | succ count =>
      rw [riceValues]
      dsimp only
      split
      · generalize entropyDecodeValue 16 _ rice.kModifierMask _ = second
        have covered := runLength_le second.1 count
        simp only [List.length_cons, List.length_append, List.length_replicate]
        rw [ih _ (by omega)]
        omega
      · simp [ih count (by omega)]

/-- Zeros written behind the written part extend it. -/
theorem writing_fill {done buffer : List Word} {stop : Nat} (r : BitReader)
    (low : done.length ≤ stop) (high : stop ≤ buffer.length) :
    writing (fill done.length stop 0) (r, overwrite done buffer) =
      (some (), r, overwrite (done ++ List.replicate (stop - done.length) 0) buffer) := by
  have room : done.length + (List.replicate (stop - done.length) (0 : Word)).length ≤
      buffer.length := by
    rw [List.length_replicate]
    omega
  simp only [writing, fill, if_pos low, focus_run, writeSlice_overwrite _ room]

/-- One value written behind the written part extends it. -/
theorem writing_write {done buffer : List Word} (r : BitReader) (value : Word)
    (room : done.length < buffer.length) :
    writing (.write done.length value) (r, overwrite done buffer) =
      (some (), r, overwrite (done ++ [value]) buffer) := by
  simp only [writing, focus_run, write_overwrite value room]

@[simp] theorem reading_bind {α β : Type} (read : BitReader → Word × BitReader) (r : BitReader)
    (out : β) (f : Word → Attempt (BitReader × β) α) :
    (reading read >>= f) (r, out) = f (read r).1 ((read r).2, out) := rfl

/-- The loop, started behind the values that are already written. -/
theorem riceLoop_run {outputSize : Nat} {buffer : List Word} (room : outputSize ≤ buffer.length)
    (rounds count : Nat) (done : List Word) (left : done.length + count = outputSize)
    (enough : count ≤ rounds) (history signModifier : Word) (r : BitReader) :
    riceLoop outputSize readSampleSize rice rounds done.length history signModifier
        (r, overwrite done buffer) =
      (some (), (riceValues readSampleSize rice count history signModifier r).2,
        overwrite (done ++ (riceValues readSampleSize rice count history signModifier r).1)
          buffer) := by
  induction rounds generalizing count done history signModifier r with
  | zero =>
    obtain rfl : count = 0 := by omega
    simp [riceValues, riceLoop]
  | succ rounds ih =>
    cases count with
    | zero =>
      have finished : ¬ done.length < outputSize := by omega
      simp [riceLoop, riceValues, finished]
    | succ count =>
      rw [riceLoop, if_pos (by omega), riceValues]
      dsimp only
      rw [reading_bind, bind_of_some (writing_write _ _ (by omega))]
      generalize entropyDecodeValue readSampleSize (rice.k history) 0xFFFFFFFF r = first
      generalize finalValue (first.1 + signModifier) = value
      generalize rice.nextHistory history (first.1 + signModifier) = next
      have written : (done ++ [value]).length = done.length + 1 := by simp
      by_cases run : next.toInt < 128 ∧ done.length + 1 < outputSize
      · have run' : next.toInt < 128 ∧ 0 < count := ⟨run.1, by omega⟩
        rw [if_pos run, if_pos run', reading_bind]
        generalize entropyDecodeValue 16 (zeroRunK next) rice.kModifierMask first.2 = second
        have covered := runLength_le second.1 count
        by_cases positive : 0 < second.1.toInt
        · have stops : min (done.length + 1 + second.1.toNat) outputSize =
              (done ++ [value]).length + runLength second.1 count := by
            rw [runLength, if_pos positive, written]
            omega
          rw [if_pos positive, stops, ← written,
            bind_of_some (writing_fill second.2 (by omega) (by omega)),
            Nat.add_sub_cancel_left]
          have goes := ih (count - runLength second.1 count)
            (done ++ [value] ++ List.replicate (runLength second.1 count) 0)
            (by simp; omega) (by omega) 0 (signAfter second.1) second.2
          rw [List.length_append, List.length_replicate] at goes
          simpa [signAfter] using goes
        · rw [if_neg positive]
          have goes := ih count (done ++ [value]) (by omega) (by omega) 0
            (signAfter second.1) second.2
          simpa [runLength, positive, signAfter] using goes
      · have run' : ¬ (next.toInt < 128 ∧ 0 < count) := by omega
        rw [if_neg run, if_neg run']
        have goes := ih count (done ++ [value]) (by omega) (by omega) next 0 first.2
        simpa using goes

def channelErrors (outputSize : Nat) (r : BitReader) : List Word × BitReader :=
  riceValues readSampleSize rice outputSize rice.initialHistory 0 r

theorem length_channelErrors (outputSize : Nat) (r : BitReader) :
    (channelErrors readSampleSize rice outputSize r).1.length = outputSize :=
  length_riceValues readSampleSize rice outputSize _ _ r

/-- `entropy_rice_decode` stays inside a buffer of `output_size` elements and overwrites
its front with the values of the channel. -/
theorem entropyRiceDecode_run {outputSize : Nat} {buffer : List Word}
    (room : outputSize ≤ buffer.length) (r : BitReader) :
    entropyRiceDecode outputSize readSampleSize rice (r, buffer) =
      (some (), (channelErrors readSampleSize rice outputSize r).2,
        overwrite (channelErrors readSampleSize rice outputSize r).1 buffer) := by
  simpa [entropyRiceDecode, channelErrors] using
    riceLoop_run readSampleSize rice room outputSize outputSize [] (by simp) le_rfl
      rice.initialHistory 0 r

end Shairplay.Codec
