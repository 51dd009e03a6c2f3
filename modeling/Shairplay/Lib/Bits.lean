import Mathlib.Data.Nat.Bitwise
import Mathlib.Tactic.Ring

/-!
# Bit strings in bytes

Numbers as bit strings with the most significant bit first, and bit strings in byte
strings. A byte string is read at every position: behind its end all bits are zero, so
that nothing here depends on where a stream stops.
-/

namespace Shairplay.Lib.Bits

/-- The number of a bit string. -/
def value : List Bool → Nat
  | [] => 0
  | b :: bits => b.toNat * 2 ^ bits.length + value bits

/-- The low `width` bits of a number. -/
def field : (width n : Nat) → List Bool
  | 0, _ => []
  | width + 1, n => n.testBit width :: field width n

@[simp] theorem length_field (width n : Nat) : (field width n).length = width := by
  induction width with
  | zero => rfl
  | succ width ih => rw [field, List.length_cons, ih]

theorem value_field (width n : Nat) : value (field width n) = n % 2 ^ width := by
  induction width with
  | zero => simp [field, value, Nat.mod_one]
  | succ width ih =>
    rw [field, value, ih, length_field, Nat.mod_pow_succ, Nat.toNat_testBit]
    ring

/-- A field is written in two parts. -/
theorem field_add (m n k : Nat) : field (m + n) k = field m (k / 2 ^ n) ++ field n k := by
  induction m with
  | zero => rw [Nat.zero_add, field, List.nil_append]
  | succ m ih =>
    rw [Nat.add_right_comm, field, field, ih, Nat.testBit_div_two_pow, List.cons_append]

theorem getElem_field {width n j : Nat} (inside : j < (field width n).length) :
    (field width n)[j] = n.testBit (width - 1 - j) := by
  induction width generalizing j with
  | zero => cases inside
  | succ width ih =>
    cases j with
    | zero => rfl
    | succ j =>
      rw [length_field] at inside
      have rest := ih (j := j) (by rw [length_field]; omega)
      simp only [field, List.getElem_cons_succ, rest]
      congr 1
      omega

theorem value_lt (bits : List Bool) : value bits < 2 ^ bits.length := by
  induction bits with
  | nil => exact Nat.one_pos
  | cons b bits ih =>
    rw [value, List.length_cons, pow_succ]
    cases b
    · simp only [Bool.toNat_false, zero_mul, zero_add]
      omega
    · simp only [Bool.toNat_true, one_mul]
      omega

theorem value_append (xs ys : List Bool) :
    value (xs ++ ys) = value xs * 2 ^ ys.length + value ys := by
  induction xs with
  | nil => simp [value]
  | cons x xs ih =>
    rw [List.cons_append, value, ih, value, List.length_append, pow_add]
    ring

theorem testBit_value {bits : List Bool} {j : Nat} (inside : j < bits.length) :
    (value bits).testBit (bits.length - 1 - j) = bits[j] := by
  induction bits generalizing j with
  | nil => cases inside
  | cons b bits ih =>
    rw [value, Nat.mul_comm, Nat.testBit_two_pow_mul_add _ (value_lt bits)]
    cases j with
    | zero =>
      cases b <;> simp
    | succ j =>
      rw [List.length_cons] at inside
      rw [if_pos (by rw [List.length_cons]; omega), List.getElem_cons_succ, ← ih (by omega)]
      congr 1
      rw [List.length_cons]
      omega

theorem field_value (bits : List Bool) : field bits.length (value bits) = bits := by
  apply List.ext_getElem (length_field _ _)
  intro j inside within
  rw [getElem_field, testBit_value within]

/-- A bit of a byte string; the first bit of a byte is its most significant one. -/
def bitAt (bytes : List UInt8) (i : Nat) : Bool :=
  (bytes.getD (i / 8) 0).toNat.testBit (7 - i % 8)

def bitsAt (bytes : List UInt8) : (start count : Nat) → List Bool
  | _, 0 => []
  | start, count + 1 => bitAt bytes start :: bitsAt bytes (start + 1) count

@[simp] theorem length_bitsAt (bytes : List UInt8) (start count : Nat) :
    (bitsAt bytes start count).length = count := by
  induction count generalizing start with
  | zero => rfl
  | succ count ih => rw [bitsAt, List.length_cons, ih]

theorem bitsAt_add (bytes : List UInt8) (start m n : Nat) :
    bitsAt bytes start (m + n) = bitsAt bytes start m ++ bitsAt bytes (start + m) n := by
  induction m generalizing start with
  | zero => rw [Nat.zero_add]; rfl
  | succ m ih =>
    rw [show m + 1 + n = m + n + 1 by omega, bitsAt, bitsAt, ih, List.cons_append,
      show start + 1 + m = start + (m + 1) by omega]

theorem value_byte (bytes : List UInt8) (p : Nat) :
    value (bitsAt bytes (8 * p) 8) = (bytes.getD p 0).toNat := by
  have bit (j : Nat) (h : j < 8) :
      bitAt bytes (8 * p + j) = (bytes.getD p 0).toNat.testBit (7 - j) := by
    rw [bitAt, show (8 * p + j) / 8 = p by omega, show (8 * p + j) % 8 = j by omega]
  have bits : bitsAt bytes (8 * p) 8 = field 8 (bytes.getD p 0).toNat := by
    simp only [bitsAt, field, Nat.add_assoc, Nat.reduceAdd]
    rw [bit 1 (by omega), bit 2 (by omega), bit 3 (by omega), bit 4 (by omega),
      bit 5 (by omega), bit 6 (by omega), bit 7 (by omega)]
    have first := bit 0 (by omega)
    rw [Nat.add_zero] at first
    rw [first]
  rw [bits, value_field]
  exact Nat.mod_eq_of_lt (UInt8.toNat_lt _)

/-- All bits of a byte string, the most significant bit of a byte first. -/
def bitList (bytes : List UInt8) : List Bool := bytes.flatMap fun byte => field 8 byte.toNat

/-- A bit string with zeros behind it, without end. -/
def endless (bits : List Bool) (i : Nat) : Bool := bits.getD i false

/-- Consecutive bits of an endless bit string. -/
def segment (bits : Nat → Bool) (start count : Nat) : List Bool :=
  (List.range count).map fun j => bits (start + j)

theorem endless_bitList (bytes : List UInt8) (i : Nat) :
    endless (bitList bytes) i = bitAt bytes i := by
  induction bytes generalizing i with
  | nil => simp [endless, bitList, bitAt]
  | cons byte bytes ih =>
    have split : bitList (byte :: bytes) = field 8 byte.toNat ++ bitList bytes := rfl
    by_cases first : i < 8
    · have inside : i < (field 8 byte.toNat).length := by simpa using first
      have zero : i / 8 = 0 := by omega
      have same : i % 8 = i := by omega
      simp [endless, split, bitAt, zero, same, List.getElem?_append_left inside,
        List.getElem?_eq_getElem inside, getElem_field]
    · obtain ⟨j, rfl⟩ : ∃ j, i = j + 8 := ⟨i - 8, by omega⟩
      have behind : endless (bitList (byte :: bytes)) (j + 8) = endless (bitList bytes) j := by
        simp [endless, split, List.getElem?_append_right]
      rw [behind, ih, bitAt, bitAt, Nat.add_div_right j (by decide), Nat.add_mod_right]
      rfl

theorem bitsAt_eq_segment (bytes : List UInt8) (start count : Nat) :
    bitsAt bytes start count = segment (endless (bitList bytes)) start count := by
  induction count generalizing start with
  | zero => rfl
  | succ count ih =>
    rw [bitsAt, ih, segment, segment, List.range_succ_eq_map, List.map_cons, List.map_map]
    simp only [endless_bitList, Function.comp_def, Nat.add_zero, Nat.add_succ, Nat.succ_add]

/-- The bytes of a bit string; the last one is filled with zeros. -/
def pack (bits : List Bool) : List UInt8 :=
  (List.range ((bits.length + 7) / 8)).map fun p =>
    UInt8.ofNat (value ((List.range 8).map fun j => bits.getD (8 * p + j) false))

@[simp] theorem length_pack (bits : List Bool) : (pack bits).length = (bits.length + 7) / 8 := by
  simp [pack]

theorem bitAt_pack {bits : List Bool} {i : Nat} (inside : i < bits.length) :
    bitAt (pack bits) i = bits[i] := by
  have byte : (pack bits).getD (i / 8) 0 = UInt8.ofNat (value ((List.range 8).map fun j =>
      bits.getD (8 * (i / 8) + j) false)) := by
    rw [pack, List.getD_eq_getElem?_getD, List.getElem?_map,
      List.getElem?_range (show i / 8 < (bits.length + 7) / 8 by omega)]
    rfl
  have length : ((List.range 8).map fun j => bits.getD (8 * (i / 8) + j) false).length = 8 := rfl
  have small := value_lt ((List.range 8).map fun j => bits.getD (8 * (i / 8) + j) false)
  rw [length] at small
  have within : i % 8 < ((List.range 8).map fun j => bits.getD (8 * (i / 8) + j) false).length := by
    rw [length]
    omega
  have bit := testBit_value within
  rw [length] at bit
  rw [bitAt, byte, UInt8.toNat_ofNat', Nat.mod_eq_of_lt small, bit, List.getElem_map,
    List.getElem_range, show 8 * (i / 8) + i % 8 = i by omega,
    List.getD_eq_getElem?_getD, List.getElem?_eq_getElem inside]
  rfl

/-- The byte string holds the bit string at a position. -/
def Holds (bytes : List UInt8) (start : Nat) (bits : List Bool) : Prop :=
  bitsAt bytes start bits.length = bits

theorem holds_append {bytes : List UInt8} {start : Nat} {xs ys : List Bool} :
    Holds bytes start (xs ++ ys) ↔ Holds bytes start xs ∧ Holds bytes (start + xs.length) ys := by
  rw [Holds, List.length_append, bitsAt_add]
  constructor
  · intro h
    exact List.append_inj h (length_bitsAt _ _ _)
  · rintro ⟨first, rest⟩
    rw [first, rest]

theorem holds_cons {bytes : List UInt8} {start : Nat} {b : Bool} {bits : List Bool} :
    Holds bytes start (b :: bits) ↔ bitAt bytes start = b ∧ Holds bytes (start + 1) bits := by
  rw [Holds, List.length_cons, bitsAt, List.cons.injEq]
  rfl

theorem holds_pack (bits : List Bool) : Holds (pack bits) 0 bits := by
  suffices general : ∀ start count, start + count = bits.length →
      bitsAt (pack bits) start count = bits.drop start by
    exact general 0 bits.length (Nat.zero_add _)
  intro start count
  induction count generalizing start with
  | zero =>
    intro total
    rw [bitsAt, List.drop_of_length_le (by omega)]
  | succ count ih =>
    intro total
    have inside : start < bits.length := by omega
    rw [bitsAt, ih (start + 1) (by omega), bitAt_pack inside, List.getElem_cons_drop]

/-- The number at a position where a field is held. -/
theorem value_of_holds {bytes : List UInt8} {start width n : Nat}
    (held : Holds bytes start (field width n)) :
    value (bitsAt bytes start width) = n % 2 ^ width := by
  rw [Holds, length_field] at held
  rw [held, value_field]

/-- At every position some field of every width is held. -/
theorem holds_value (bytes : List UInt8) (start width : Nat) :
    Holds bytes start (field width (value (bitsAt bytes start width))) := by
  have same := field_value (bitsAt bytes start width)
  rw [length_bitsAt] at same
  rw [Holds, length_field, same]

end Shairplay.Lib.Bits
