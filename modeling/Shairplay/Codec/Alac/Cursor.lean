import Shairplay.Codec.Alac.Reader
import Shairplay.Lib.Machine

/-!
# Calls on the reader of a frame

A frame is its list of bits, with zeros behind it that do not end. Fields are read, and bits
are given back. As long as nothing in front of the frame is asked for, each read returns the
number of the next bits of that list, and the reader stands behind as many bits as have been
consumed and not been given back.
-/

namespace Shairplay.Codec

open Lib Lib.Bits Machine

/-- A call on the reader. -/
inductive ReadCall
  | readbits (bits : Word)
  | readbit
  | unreadbits (bits : Word)
  deriving DecidableEq

namespace ReadCall

/-- The bits that a call consumes; those that it gives back count against them. -/
def consumed : ReadCall → Int
  | .readbits bits => bits.toNat
  | .readbit => 1
  | .unreadbits bits => -bits.toNat

def netConsumed (calls : List ReadCall) : Int := (calls.map consumed).sum

/-- A call that reads at most 32 bits. -/
def Fits : ReadCall → Prop
  | .readbits bits => bits.toNat ≤ 32
  | _ => True

instance : (call : ReadCall) → Decidable call.Fits
  | .readbits bits => inferInstanceAs (Decidable (bits.toNat ≤ 32))
  | .readbit => .isTrue trivial
  | .unreadbits _ => .isTrue trivial

/-- What a call returns at a position of an endless bit string. -/
def expected (bits : Nat → Bool) (q : Nat) : ReadCall → List Nat
  | .readbits n => [value (segment bits q n.toNat)]
  | .readbit => [value (segment bits q 1)]
  | .unreadbits _ => []

theorem netConsumed_concat (calls : List ReadCall) (call : ReadCall) :
    netConsumed (calls ++ [call]) = netConsumed calls + call.consumed := by
  simp [netConsumed]

end ReadCall

namespace BitReader

open ReadCall

def position (r : BitReader) : Nat := 8 * r.pos + r.bit.toNat

/-- A call with the number that it returns, if it returns one. -/
def call (r : BitReader) : ReadCall → BitReader × List Nat
  | .readbits bits => ((r.readbits bits).2, [(r.readbits bits).1.toNat])
  | .readbit => (r.readbit.2, [r.readbit.1.toNat])
  | .unreadbits bits => (r.unreadbits bits, [])

def after (buf : List UInt8) (calls : List ReadCall) : BitReader := (run call (new buf) calls).1

theorem after_concat (buf : List UInt8) (calls : List ReadCall) (c : ReadCall) :
    after buf (calls ++ [c]) = ((after buf calls).call c).1 := by
  simp [after, run_append]

@[simp] theorem position_seek (buf : List UInt8) (q : Nat) : (seek buf q).position = q := by
  simp only [position, seek, BitVec.toNat_ofNat]
  omega

/-- A call at a position returns what is expected there and moves on by what it consumes. -/
theorem call_seek (buf : List UInt8) (q : Nat) (c : ReadCall) (fits : c.Fits)
    (inside : 0 ≤ q + c.consumed) :
    (seek buf q).call c =
      (seek buf (q + c.consumed).toNat, c.expected (endless (bitList buf)) q) := by
  cases c with
  | readbits n =>
    have read := readbits_seek buf q n.toNat fits
    rw [BitVec.ofNat_toNat, BitVec.setWidth_eq] at read
    have moved : ((q : Int) + (ReadCall.readbits n).consumed).toNat = q + n.toNat := by
      simp only [consumed]
      omega
    simp only [call, expected, read, moved, ← bitsAt_eq_segment, toNat_ofNat_value _ _ _ fits]
  | readbit =>
    have moved : ((q : Int) + ReadCall.readbit.consumed).toNat = q + 1 := by
      simp only [consumed]
      omega
    have bit : (if bitAt buf q then 1 else 0 : Word).toNat =
        value (segment (endless (bitList buf)) q 1) := by
      rw [← bitsAt_eq_segment]
      cases read : bitAt buf q <;> simp [bitsAt, value, read]
    simp only [call, expected, readbit_seek, moved, bit]
  | unreadbits n =>
    have behind : n.toNat ≤ q := by
      simp only [consumed] at inside
      omega
    have moved : ((q : Int) + (ReadCall.unreadbits n).consumed).toNat = q - n.toNat := by
      simp only [consumed]
      omega
    simp only [call, expected, unreadbits_seek buf behind, moved]

/-- After calls that stay inside, the reader is at the position that they lead to. -/
theorem after_eq_seek {buf : List UInt8} {calls : List ReadCall} (fits : ∀ c ∈ calls, c.Fits)
    (inside : ∀ earlier, earlier <+: calls → 0 ≤ netConsumed earlier) :
    after buf calls = seek buf (netConsumed calls).toNat := by
  induction calls using List.reverseRecOn with
  | nil => rfl
  | append_singleton earlier c ih =>
    have before := ih (fun d mem => fits d (List.mem_append_left _ mem))
      (fun first starts => inside first (starts.trans (List.prefix_append earlier [c])))
    have started := inside earlier (List.prefix_append earlier [c])
    have total := inside _ List.prefix_rfl
    have position : ((netConsumed earlier).toNat : Int) = netConsumed earlier :=
      Int.toNat_of_nonneg started
    rw [netConsumed_concat] at total ⊢
    rw [after_concat, before, call_seek buf _ c (fits c (by simp)) (by rwa [position]), position]

/-- For every frame and every sequence of calls that read at most 32 bits each and stay inside,
each read returns the number of the next bits of the frame, and the position is the net
number of bits consumed, after every one of the calls. -/
theorem calls_refine_bitList (buf : List UInt8) (calls : List ReadCall) (fits : ∀ c ∈ calls, c.Fits)
    (inside : ∀ earlier, earlier <+: calls → 0 ≤ netConsumed earlier) :
    (∀ earlier c, earlier ++ [c] <+: calls →
        ((after buf earlier).call c).2 =
          c.expected (endless (bitList buf)) (netConsumed earlier).toNat) ∧
      ∀ earlier, earlier <+: calls →
        ((after buf earlier).position : Int) = netConsumed earlier ∧
          (after buf earlier).bit.toNat < 8 := by
  have standing : ∀ earlier, earlier <+: calls →
      after buf earlier = seek buf (netConsumed earlier).toNat := by
    intro earlier starts
    exact after_eq_seek (fun c mem => fits c (starts.subset mem))
      (fun first firstStarts => inside first (firstStarts.trans starts))
  refine ⟨?_, ?_⟩
  · intro earlier c starts
    have before : earlier <+: calls := (List.prefix_append earlier [c]).trans starts
    have total := inside _ starts
    have position : ((netConsumed earlier).toNat : Int) = netConsumed earlier :=
      Int.toNat_of_nonneg (inside earlier before)
    rw [netConsumed_concat] at total
    rw [standing earlier before,
      call_seek buf _ c (fits c (starts.subset (by simp))) (by rwa [position])]
  · intro earlier starts
    rw [standing earlier starts, position_seek]
    refine ⟨Int.toNat_of_nonneg (inside earlier starts), ?_⟩
    simp only [seek, BitVec.toNat_ofNat]
    omega

/-- A field across four bytes, a rewind across a byte, and reads behind the end. -/
theorem calls_refine_bitList_rewind :
    (∀ earlier, earlier <+: [.readbit, .readbits 32, .unreadbits 20, .readbits 17, .readbits 0] →
        0 ≤ netConsumed earlier) ∧
      ((after [0x80, 0x01, 0xff] [.readbit, .readbits 32, .unreadbits 20]).call (.readbits 17)).2 =
        [0x7fc0] ∧
      ((after [0x80, 0x01, 0xff]
        [.readbit, .readbits 32, .unreadbits 20, .readbits 17, .readbits 0]).position : Int) =
        30 := by
  have inside : ∀ earlier,
      earlier <+: [.readbit, .readbits 32, .unreadbits 20, .readbits 17, .readbits 0] →
        0 ≤ netConsumed earlier := by
    intro earlier starts
    rw [← List.mem_inits] at starts
    revert earlier
    decide
  have refined := calls_refine_bitList [0x80, 0x01, 0xff]
    [.readbit, .readbits 32, .unreadbits 20, .readbits 17, .readbits 0] (by decide) inside
  refine ⟨inside, ?_, ?_⟩
  · refine (refined.1 [.readbit, .readbits 32, .unreadbits 20] (.readbits 17) ?_).trans ?_
    · exact ⟨[.readbits 0], rfl⟩
    · decide
  · exact (refined.2 _ List.prefix_rfl).1

end BitReader

end Shairplay.Codec
