import Mathlib.Data.Nat.Digits.Lemmas

/-!
# Integers as bytes

Fixed-width little-endian integers, as `to_le_bytes` and `from_le_bytes` of the
unsigned types read and write them, and big-endian numbers of any size without leading
zeros, as the big integers of the source do.
-/

namespace Shairplay.Lib.Bytes

/-- The `width` little-endian bytes of a number. -/
def leBytes : (width n : Nat) → List UInt8
  | 0, _ => []
  | width + 1, n => UInt8.ofNat n :: leBytes width (n / 256)

/-- The number of little-endian bytes. -/
def leNat : List UInt8 → Nat
  | [] => 0
  | b :: bytes => b.toNat + 256 * leNat bytes

@[simp] theorem length_leBytes (width n : Nat) : (leBytes width n).length = width := by
  induction width generalizing n with
  | zero => rfl
  | succ width ih => simp [leBytes, ih]

theorem leNat_leBytes {width n : Nat} (fits : n < 256 ^ width) : leNat (leBytes width n) = n := by
  induction width generalizing n with
  | zero => simpa [leBytes, leNat, eq_comm] using fits
  | succ width ih =>
    have rest : n / 256 < 256 ^ width :=
      Nat.div_lt_of_lt_mul (by rw [pow_succ'] at fits; exact fits)
    rw [leBytes, leNat, ih rest, UInt8.toNat_ofNat']
    omega

theorem leNat_lt (bytes : List UInt8) : leNat bytes < 256 ^ bytes.length := by
  induction bytes with
  | nil => simp [leNat]
  | cons b bytes ih =>
    have byte := b.toNat_lt
    rw [leNat, List.length_cons, pow_succ']
    omega

theorem leBytes_leNat (bytes : List UInt8) : leBytes bytes.length (leNat bytes) = bytes := by
  induction bytes with
  | nil => rfl
  | cons b bytes ih =>
    have low : UInt8.ofNat (b.toNat + 256 * leNat bytes) = b := by
      apply UInt8.toNat_inj.mp
      rw [UInt8.toNat_ofNat', Nat.add_mul_mod_self_left, Nat.mod_eq_of_lt b.toNat_lt]
    have high : (b.toNat + 256 * leNat bytes) / 256 = leNat bytes := by
      have := b.toNat_lt
      omega
    rw [List.length_cons, leNat, leBytes, low, high, ih]

/-- Different numbers have different bytes. -/
theorem leBytes_inj {width n m : Nat} (hn : n < 256 ^ width) (hm : m < 256 ^ width)
    (same : leBytes width n = leBytes width m) : n = m := by
  rw [← leNat_leBytes hn, same, leNat_leBytes hm]

/-- The number of big-endian bytes; leading zeros do not matter. -/
def beNat (bytes : List UInt8) : Nat := Nat.ofDigits 256 (bytes.reverse.map UInt8.toNat)

/-- The shortest big-endian bytes of a number; zero takes one byte. -/
def beBytes (n : Nat) : List UInt8 :=
  if n = 0 then [0] else ((Nat.digits 256 n).map UInt8.ofNat).reverse

/-- Pad with zeros on the left to at least `length` bytes. -/
def padLeft (length : Nat) (bytes : List UInt8) : List UInt8 :=
  List.replicate (length - bytes.length) 0 ++ bytes

theorem beNat_beBytes (n : Nat) : beNat (beBytes n) = n := by
  unfold beNat beBytes
  split
  · rename_i zero
    rw [zero]
    rfl
  · have digits : ((Nat.digits 256 n).map UInt8.ofNat).map UInt8.toNat = Nat.digits 256 n := by
      rw [List.map_map]
      refine (List.map_congr_left fun d mem => ?_).trans (List.map_id _)
      have small : d < 256 := Nat.digits_lt_base (by decide) mem
      simp [UInt8.toNat_ofNat', Nat.mod_eq_of_lt small]
    rw [List.reverse_reverse, digits, Nat.ofDigits_digits]

theorem beNat_padLeft (length : Nat) (bytes : List UInt8) :
    beNat (padLeft length bytes) = beNat bytes := by
  rw [beNat, padLeft, List.reverse_append, List.reverse_replicate, List.map_append,
    List.map_replicate]
  exact Nat.ofDigits_append_replicate_zero _

theorem length_padLeft (length : Nat) (bytes : List UInt8) :
    (padLeft length bytes).length = max length bytes.length := by
  rw [padLeft, List.length_append, List.length_replicate]
  omega

theorem length_beBytes_le {n k : Nat} (fits : n < 256 ^ k) (pos : 0 < k) :
    (beBytes n).length ≤ k := by
  unfold beBytes
  split
  · exact pos
  · rw [List.length_reverse, List.length_map]
    exact (Nat.digits_length_le_iff (by decide) n).mpr fits

/-- The shortest bytes of a number other than zero do not start with one. -/
theorem head?_beBytes {n : Nat} (nonzero : n ≠ 0) : (beBytes n).head? ≠ some 0 := by
  have some : Nat.digits 256 n ≠ [] := Nat.digits_ne_nil_iff_ne_zero.mpr nonzero
  have small : (Nat.digits 256 n).getLast some < 256 :=
    Nat.digits_lt_base (by decide) (List.getLast_mem some)
  rw [beBytes, if_neg nonzero, List.head?_reverse, List.getLast?_map,
    List.getLast?_eq_getLast_of_ne_nil some]
  intro zero
  have value := congrArg UInt8.toNat (Option.some.inj zero)
  rw [UInt8.toNat_ofNat', Nat.mod_eq_of_lt small] at value
  exact Nat.getLast_digit_ne_zero 256 nonzero value

theorem beNat_zero_cons (bytes : List UInt8) : beNat (0 :: bytes) = beNat bytes := by
  rw [beNat, beNat, List.reverse_cons, List.map_append, Nat.ofDigits_append]
  simp

theorem beNat_lt (bytes : List UInt8) : beNat bytes < 256 ^ bytes.length := by
  have digits : ∀ digit ∈ bytes.reverse.map UInt8.toNat, digit < 256 := by
    intro digit mem
    obtain ⟨byte, _, rfl⟩ := List.mem_map.mp mem
    exact byte.toNat_lt
  have bound := Nat.ofDigits_lt_base_pow_length (by decide) digits
  rwa [List.length_map, List.length_reverse] at bound

theorem length_beBytes_beNat_le {bytes : List UInt8} (some : 0 < bytes.length) :
    (beBytes (beNat bytes)).length ≤ bytes.length :=
  length_beBytes_le (beNat_lt bytes) some

/-- A leading zero gets lost. -/
theorem length_beBytes_beNat_lt {bytes : List UInt8} (long : 2 ≤ bytes.length)
    (zero : bytes.head? = some 0) : (beBytes (beNat bytes)).length < bytes.length := by
  obtain ⟨rest, rfl⟩ := List.head?_eq_some_iff.mp zero
  rw [List.length_cons] at long ⊢
  rw [beNat_zero_cons]
  exact Nat.lt_succ_of_le (length_beBytes_le (beNat_lt rest) (by omega))

/-- Going through the number keeps bytes exactly if no leading zero gets lost. -/
theorem beBytes_beNat_iff {bytes : List UInt8} (long : 2 ≤ bytes.length) :
    beBytes (beNat bytes) = bytes ↔ bytes.head? ≠ some 0 := by
  constructor
  · intro same
    by_cases zero : beNat bytes = 0
    · rw [zero] at same
      have short := congrArg List.length same
      simp [beBytes] at short
      omega
    · have lead := head?_beBytes zero
      rwa [same] at lead
  · intro lead
    have filled : bytes ≠ [] := List.ne_nil_of_length_pos (by omega)
    have digits : Nat.digits 256 (beNat bytes) = bytes.reverse.map UInt8.toNat := by
      refine Nat.digits_ofDigits 256 (by decide) _ ?_ ?_
      · intro digit mem
        obtain ⟨byte, _, rfl⟩ := List.mem_map.mp mem
        exact byte.toNat_lt
      · intro some zero
        apply lead
        rw [List.getLast_map, List.getLast_reverse] at zero
        rw [List.head?_eq_some_head filled, UInt8.toNat_inj.mp (zero.trans UInt8.toNat_zero.symm)]
    have nonzero : beNat bytes ≠ 0 := by
      intro zero
      rw [zero, Nat.digits_zero] at digits
      have short := congrArg List.length digits
      simp at short
      omega
    rw [beBytes, if_neg nonzero, digits, List.map_map]
    have same : bytes.reverse.map (UInt8.ofNat ∘ UInt8.toNat) = bytes.reverse :=
      (List.map_congr_left fun byte _ => UInt8.ofNat_toNat).trans (List.map_id _)
    rw [same, List.reverse_reverse]

end Shairplay.Lib.Bytes
