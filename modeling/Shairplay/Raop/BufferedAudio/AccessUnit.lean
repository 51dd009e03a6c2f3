import Shairplay.Raop.BufferedAudio.Payload

/-!
# Access units behind AU headers

An AU header of RFC 3640 in its AAC-hbr mode has 13 bits for the size of the access unit in
octets and 3 bits for its index. The receiver takes the size for a number of bits, so of a
packed access unit it returns the first eighth.
-/

namespace Shairplay.Raop.BufferedAudio

/-- A `u16` as big-endian bytes. -/
def u16Bytes (n : Nat) : List UInt8 := [UInt8.ofNat (n / 256), UInt8.ofNat n]

/-- An AU header: the size in octets, and index 0 in the low three bits. -/
def auHeader (size : Nat) : Nat := size <<< 3

/-- An access unit behind a section of one AU header, which is 16 bits long. -/
def packAccessUnit (au : List UInt8) : List UInt8 :=
  u16Bytes 16 ++ u16Bytes (auHeader au.length) ++ au

theorem beU16_u16Bytes {n : Nat} (fits : n < 65536) (front rest : List UInt8) :
    beU16 (front ++ u16Bytes n ++ rest) front.length = n := by
  have high : (front ++ u16Bytes n ++ rest).getD front.length 0 = UInt8.ofNat (n / 256) := by
    simp [u16Bytes, List.getD_eq_getElem?_getD]
  have low : (front ++ u16Bytes n ++ rest).getD (front.length + 1) 0 = UInt8.ofNat n := by
    simp [u16Bytes, List.getD_eq_getElem?_getD]
  rw [beU16, high, low, UInt8.toNat_ofNat', UInt8.toNat_ofNat']
  omega

theorem auHeader_shiftRight (size : Nat) : auHeader size >>> 3 = size := by
  rw [auHeader, Nat.shiftLeft_eq, Nat.shiftRight_eq_div_pow, Nat.mul_div_cancel _ (by decide)]

/-- The size counts as bits, which are rounded up to bytes. -/
theorem extractAacAccessUnit_packAccessUnit {au : List UInt8} (some : 0 < au.length)
    (fits : au.length ≤ 8191) :
    extractAacAccessUnit (packAccessUnit au) = .some (au.take ((au.length + 7) / 8)) := by
  have header : auHeader au.length < 65536 := by
    rw [auHeader, Nat.shiftLeft_eq]
    omega
  have bits : beU16 (packAccessUnit au) 0 = 16 := by
    have := beU16_u16Bytes (show 16 < 65536 by decide) [] (u16Bytes (auHeader au.length) ++ au)
    rwa [List.nil_append, ← List.append_assoc] at this
  have size : beU16 (packAccessUnit au) 2 >>> 3 = au.length := by
    have field : beU16 (packAccessUnit au) 2 = auHeader au.length :=
      beU16_u16Bytes header (u16Bytes 16) au
    rw [field, auHeader_shiftRight]
  have length : (packAccessUnit au).length = au.length + 4 := by
    simp [packAccessUnit, u16Bytes]
  have data : (packAccessUnit au).drop 4 = au := rfl
  simp only [extractAacAccessUnit, bits, size, length, data]
  rw [if_neg (by omega), if_neg (by omega), if_neg (by omega), if_pos (by omega),
    if_neg (by omega), if_pos (by omega)]

/-- The access unit comes back whole exactly when it is a single byte. -/
theorem extractAacAccessUnit_whole_iff (au : List UInt8) (some : 1 ≤ au.length)
    (fits : au.length ≤ 8191) :
    extractAacAccessUnit (packAccessUnit au) = .some au ↔ au.length = 1 := by
  rw [extractAacAccessUnit_packAccessUnit some fits, Option.some_inj]
  constructor
  · intro whole
    have length := congrArg List.length whole
    rw [List.length_take] at length
    omega
  · intro single
    exact List.take_of_length_le (by omega)

theorem extractAacAccessUnit_whole_byte :
    extractAacAccessUnit (packAccessUnit [7]) = .some [7] :=
  (extractAacAccessUnit_whole_iff [7] (by decide) (by decide)).mpr rfl

/-- Of two bytes the second is lost. -/
theorem extractAacAccessUnit_loses :
    packAccessUnit [1, 2] = [0, 16, 0, 16, 1, 2] ∧
      extractAacAccessUnit (packAccessUnit [1, 2]) = .some [1] := by
  decide

end Shairplay.Raop.BufferedAudio
