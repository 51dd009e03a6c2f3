import Mathlib.Data.Rat.Defs
import Mathlib.Algebra.Order.Ring.Rat

/-!
# Mixdown and resampling

The interface of the streaming resampler that the receive loops use, and the mixdown in
front of it. The resampler keeps what does not fill a chunk yet, so what it returns depends
on what it was given before.
-/

namespace Shairplay.Codec

/-- A streaming resampler for interleaved samples. -/
class StreamResample (ρ : Type) where
  new : (fromRate toRate : Nat) → (channels : Nat) → Option ρ
  process : ρ → List ℚ → ρ × List ℚ

/-- The coefficient for centre and surround channels, -3 dB. -/
def downmix3db : ℚ := 11863283 / 16777216

/-- `chunks_exact`: consecutive pieces of `n` elements; a shorter rest is left out. -/
def chunksExact {α : Type} (n : Nat) (xs : List α) : List (List α) :=
  (List.range (xs.length / n)).map fun i => (xs.drop (i * n)).take n

def clampUnit (x : ℚ) : ℚ := max (-1) (min 1 x)

/-- The stereo pair of a frame: centre and surround channels are folded in for 5.1 and 7.1. -/
def stereoPair (inChannels : Nat) (frame : List ℚ) : ℚ × ℚ :=
  let ch := fun i => frame.getD i 0
  let k := downmix3db
  if inChannels = 6 then (ch 0 + k * ch 2 + k * ch 4, ch 1 + k * ch 2 + k * ch 5)
  else if inChannels = 8 then
    (ch 0 + k * ch 2 + k * ch 4 + k * ch 6, ch 1 + k * ch 2 + k * ch 5 + k * ch 7)
  else (ch 0, frame.getD 1 (ch 0))

/-- Only stereo is mixed down to; for any other count the input is returned as it is. The sums are
exact, where the source rounds each one to `f32`. -/
def mixdown (input : List ℚ) (inChannels outChannels : Nat) : List ℚ :=
  if inChannels = 0 then []
  else if inChannels = outChannels then input
  else if outChannels ≠ 2 then input
  else
    (chunksExact inChannels input).flatMap fun frame =>
      [clampUnit (stereoPair inChannels frame).1, clampUnit (stereoPair inChannels frame).2]

def mixdownAndResample {ρ : Type} [StreamResample ρ] (samples : List ℚ)
    (srcChannels outChannels : Nat) (resampler : Option ρ) : Option ρ × List ℚ :=
  let samples :=
    if outChannels < srcChannels then mixdown samples srcChannels outChannels else samples
  match resampler with
  | none => (none, samples)
  | some rs =>
    let (rs, samples) := StreamResample.process rs samples
    (some rs, samples)

theorem length_chunksExact {α : Type} (n : Nat) (xs : List α) :
    (chunksExact n xs).length = xs.length / n := by
  rw [chunksExact, List.length_map, List.length_range]

theorem length_mixdown {inChannels outChannels frames : Nat} {input : List ℚ}
    (channels : 0 < inChannels) (whole : input.length = frames * inChannels)
    (fewer : outChannels < inChannels) :
    (mixdown input inChannels outChannels).length =
      if outChannels = 2 then frames * 2 else frames * inChannels := by
  rw [mixdown, if_neg channels.ne', if_neg fewer.ne']
  by_cases stereo : outChannels = 2
  · rw [if_neg (not_not.mpr stereo), if_pos stereo, List.length_flatMap]
    simp only [List.length_cons, List.length_nil, List.map_const', List.sum_replicate_nat]
    rw [length_chunksExact, whole, Nat.mul_div_cancel _ channels]
  · rw [if_pos stereo, if_neg stereo, whole]

/-- The announced number of samples comes out when nothing has to be mixed down, or when it is
mixed down to stereo. -/
theorem length_mixdownAndResample_iff {ρ : Type} [StreamResample ρ]
    {srcChannels maxChannels frames : Nat} {samples : List ℚ} (channels : 0 < srcChannels)
    (whole : samples.length = frames * srcChannels) :
    (mixdownAndResample samples srcChannels (min srcChannels maxChannels)
        (none : Option ρ)).2.length = frames * min srcChannels maxChannels ↔
      frames = 0 ∨ srcChannels ≤ maxChannels ∨ maxChannels = 2 := by
  rcases Nat.lt_or_ge maxChannels srcChannels with fewer | enough
  · rw [Nat.min_eq_right fewer.le]
    simp only [mixdownAndResample, if_pos fewer, length_mixdown channels whole fewer]
    split
    · rename_i stereo
      simp [stereo]
    · rename_i other
      constructor
      · intro same
        left
        by_contra some
        exact fewer.ne' (Nat.eq_of_mul_eq_mul_left (Nat.pos_of_ne_zero some) same)
      · rintro (none | enough | stereo)
        · rw [none, Nat.zero_mul, Nat.zero_mul]
        · exact absurd enough (Nat.not_le.mpr fewer)
        · exact absurd stereo other
  · rw [Nat.min_eq_left enough]
    simp only [mixdownAndResample, Nat.lt_irrefl, if_false]
    exact ⟨fun _ => .inr (.inl enough), fun _ => whole⟩

/-- A resampler that changes nothing. -/
@[reducible] def passThrough : StreamResample Unit where
  new _ _ _ := some ()
  process rs samples := (rs, samples)

/-- A frame of 5.1 for a stereo session. -/
theorem length_mixdownAndResample_surround :
    (@mixdownAndResample Unit passThrough [1, 0, 1 / 2, 0, 0, 0] 6 (min 6 2)
        none).2.length = 1 * min 6 2 ↔ 1 = 0 ∨ 6 ≤ 2 ∨ 2 = 2 :=
  @length_mixdownAndResample_iff Unit passThrough 6 2 1 [1, 0, 1 / 2, 0, 0, 0] (by decide) rfl

/-- A stereo frame is not mixed down for a mono session. -/
theorem length_mixdownAndResample_mono :
    (@mixdownAndResample Unit passThrough [1 / 2, -1 / 2] 2 (min 2 1) none).2.length = 2 ∧
      1 * min 2 1 = 1 := by
  decide

end Shairplay.Codec
