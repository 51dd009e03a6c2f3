import Shairplay.Lib.Str

/-!
# UTF-8 text in byte strings

Decoding follows the standard library of the source language: a malformed sequence
is cut at its maximal valid start, which the lossy decoder replaces by one U+FFFD
and the strict decoder rejects.
-/

namespace Shairplay.Lib.Utf8

/-- The bytes of a text. -/
def encode (s : String) : List UInt8 := s.toList.flatMap String.utf8EncodeChar

/-- Different texts have different bytes. -/
theorem encode_inj {s t : String} (same : encode s = encode t) : s = t := by
  have bytes (u : String) : u.toByteArray = (encode u).toByteArray := by
    conv_lhs => rw [← String.ofList_toList (s := u)]
    rw [String.toByteArray_ofList]
    rfl
  rw [← String.toByteArray_inj, bytes, bytes, same]

theorem encode_eq_encode {s t : String} : encode s = encode t ↔ s = t :=
  ⟨encode_inj, congrArg encode⟩

def isContinuation (b : UInt8) : Bool := 0x80 ≤ b && b ≤ 0xbf

/-- Length of the sequence a first byte announces; 0 for a byte that starts none. -/
def sequenceLength (b : UInt8) : Nat :=
  if b < 0x80 then 1
  else if b < 0xc2 then 0
  else if b < 0xe0 then 2
  else if b < 0xf0 then 3
  else if b < 0xf5 then 4
  else 0

/-- Bytes allowed in second place: overlong forms, surrogates and values above
U+10FFFF are excluded here. -/
def isSecond (first b : UInt8) : Bool :=
  if first = 0xe0 then 0xa0 ≤ b && b ≤ 0xbf
  else if first = 0xed then 0x80 ≤ b && b ≤ 0x9f
  else if first = 0xf0 then 0x90 ≤ b && b ≤ 0xbf
  else if first = 0xf4 then 0x80 ≤ b && b ≤ 0x8f
  else isContinuation b

/-- Length of the longest valid start of a sequence of `wanted` bytes. -/
def validStart (first : UInt8) (wanted : Nat) : List UInt8 → Nat
  | [] => 1
  | second :: rest =>
    if !isSecond first second then 1
    else 2 + ((rest.take (wanted - 2)).takeWhile isContinuation).length

/-- The scalar value of a complete sequence. -/
def scalar : List UInt8 → Char
  | [a] => Char.ofNat a.toNat
  | [a, b] => Char.ofNat (a.toNat % 32 * 64 + b.toNat % 64)
  | [a, b, c] => Char.ofNat (a.toNat % 16 * 4096 + b.toNat % 64 * 64 + c.toNat % 64)
  | [a, b, c, d] =>
    Char.ofNat (a.toNat % 8 * 262144 + b.toNat % 64 * 4096 + c.toNat % 64 * 64 + d.toNat % 64)
  | _ => Char.ofNat 0xfffd

/-- Cut the first character: a scalar, or `none` for a malformed start, and the rest. -/
def decodeFirst (first : UInt8) (rest : List UInt8) : Option Char × List UInt8 :=
  let wanted := sequenceLength first
  if wanted ≤ 1 then (if wanted = 1 then some (scalar [first]) else none, rest)
  else
    let valid := validStart first wanted rest
    (if valid = wanted then some (scalar (first :: rest.take (wanted - 1))) else none,
      rest.drop (valid - 1))

/-- All characters of a byte string, malformed ones as `none`. Each character takes at
least one byte, so the length bounds the number of rounds. -/
def decodeAll : Nat → List UInt8 → List (Option Char)
  | 0, _ => []
  | _, [] => []
  | fuel + 1, first :: rest =>
    (decodeFirst first rest).1 :: decodeAll fuel (decodeFirst first rest).2

/-- `String::from_utf8_lossy`. -/
def fromUtf8Lossy (bytes : List UInt8) : String :=
  String.ofList ((decodeAll bytes.length bytes).map (·.getD (Char.ofNat 0xfffd)))

/-- `String::from_utf8`. -/
def fromUtf8 (bytes : List UInt8) : Option String :=
  ((decodeAll bytes.length bytes).mapM id).map String.ofList

theorem sequenceLength_spec (b : UInt8) :
    (sequenceLength b = 1 ↔ b.toNat < 128) ∧
      (sequenceLength b = 2 ↔ 194 ≤ b.toNat ∧ b.toNat < 224) ∧
      (sequenceLength b = 3 ↔ 224 ≤ b.toNat ∧ b.toNat < 240) ∧
      (sequenceLength b = 4 ↔ 240 ≤ b.toNat ∧ b.toNat < 245) ∧ sequenceLength b ≤ 4 := by
  have length : sequenceLength b =
      if b.toNat < 128 then 1 else if b.toNat < 194 then 0 else if b.toNat < 224 then 2
      else if b.toNat < 240 then 3 else if b.toNat < 245 then 4 else 0 := by
    simp [sequenceLength, UInt8.lt_iff_toNat_lt]
  generalize sequenceLength b = n at *
  repeat' split at length
  all_goals omega

theorem isContinuation_iff {b : UInt8} :
    isContinuation b = true ↔ 128 ≤ b.toNat ∧ b.toNat ≤ 191 := by
  simp [isContinuation, UInt8.le_iff_toNat_le]

theorem isSecond_iff {first b : UInt8} :
    isSecond first b = true ↔ 128 ≤ b.toNat ∧ b.toNat ≤ 191 ∧ (first.toNat = 224 → 160 ≤ b.toNat) ∧
      (first.toNat = 237 → b.toNat ≤ 159) ∧ (first.toNat = 240 → 144 ≤ b.toNat) ∧
      (first.toNat = 244 → b.toNat ≤ 143) := by
  simp only [isSecond, isContinuation, UInt8.le_iff_toNat_le, ← UInt8.toNat_inj]
  repeat' split
  all_goals simp_all
  all_goals omega

/-- The well-formed sequences of one character. -/
inductive Sequence : List UInt8 → Prop
  | one {a : UInt8} : a.toNat < 128 → Sequence [a]
  | two {a b : UInt8} : 194 ≤ a.toNat → a.toNat < 224 → isSecond a b = true → Sequence [a, b]
  | three {a b c : UInt8} : 224 ≤ a.toNat → a.toNat < 240 → isSecond a b = true →
      isContinuation c = true → Sequence [a, b, c]
  | four {a b c d : UInt8} : 240 ≤ a.toNat → a.toNat < 245 → isSecond a b = true →
      isContinuation c = true → isContinuation d = true → Sequence [a, b, c, d]

theorem toNat_ofNat {n : Nat} (valid : n.isValidChar) : (Char.ofNat n).val.toNat = n := by
  rw [Char.ofNat, dif_pos valid]
  rfl

theorem utf8EncodeChar_scalar {bytes : List UInt8} (h : Sequence bytes) :
    String.utf8EncodeChar (scalar bytes) = bytes := by
  cases h with
  | one small =>
    rename_i a
    have value : (scalar [a]).val.toNat = a.toNat := toNat_ofNat (.inl (by omega))
    simp only [String.utf8EncodeChar, value]
    rw [if_pos (by omega), UInt8.ofNat_toNat]
  | two low high second =>
    rename_i a b
    rw [isSecond_iff] at second
    have value : (scalar [a, b]).val.toNat = a.toNat % 32 * 64 + b.toNat % 64 :=
      toNat_ofNat (.inl (by omega))
    simp only [String.utf8EncodeChar, value]
    rw [if_neg (by omega), if_pos (by omega)]
    simp only [List.cons.injEq, ← UInt8.toNat_inj, UInt8.toNat_ofNat', and_true]
    omega
  | three low high second third =>
    rename_i a b c
    rw [isSecond_iff] at second
    rw [isContinuation_iff] at third
    have value : (scalar [a, b, c]).val.toNat =
        a.toNat % 16 * 4096 + b.toNat % 64 * 64 + c.toNat % 64 := toNat_ofNat (by
      rw [Nat.isValidChar]
      omega)
    simp only [String.utf8EncodeChar, value]
    rw [if_neg (by omega), if_neg (by omega), if_pos (by omega)]
    simp only [List.cons.injEq, ← UInt8.toNat_inj, UInt8.toNat_ofNat', and_true]
    omega
  | four low high second third fourth =>
    rename_i a b c d
    rw [isSecond_iff] at second
    rw [isContinuation_iff] at third fourth
    have value : (scalar [a, b, c, d]).val.toNat = a.toNat % 8 * 262144 + b.toNat % 64 * 4096 +
        c.toNat % 64 * 64 + d.toNat % 64 := toNat_ofNat (by
      rw [Nat.isValidChar]
      omega)
    simp only [String.utf8EncodeChar, value]
    rw [if_neg (by omega), if_neg (by omega), if_neg (by omega)]
    simp only [List.cons.injEq, ← UInt8.toNat_inj, UInt8.toNat_ofNat', and_true]
    omega

/-- The bytes of a character are a well-formed sequence of it. -/
theorem sequence_utf8EncodeChar (c : Char) :
    Sequence (String.utf8EncodeChar c) ∧ scalar (String.utf8EncodeChar c) = c := by
  have valid : c.val.toNat < 55296 ∨ 57343 < c.val.toNat ∧ c.val.toNat < 1114112 := c.valid
  have same {n : Nat} (value : n = c.val.toNat) : Char.ofNat n = c := by
    rw [value]
    exact Char.ofNat_toNat c
  simp only [String.utf8EncodeChar]
  split
  · refine ⟨.one ?_, same ?_⟩
    · rw [UInt8.toNat_ofNat']
      omega
    · rw [UInt8.toNat_ofNat']
      omega
  split
  · refine ⟨.two ?_ ?_ ?_, same ?_⟩
    all_goals simp only [isSecond_iff, UInt8.toNat_ofNat']
    all_goals omega
  split
  · refine ⟨.three ?_ ?_ ?_ ?_, same ?_⟩
    all_goals simp only [isSecond_iff, isContinuation_iff, UInt8.toNat_ofNat']
    all_goals omega
  · refine ⟨.four ?_ ?_ ?_ ?_ ?_, same ?_⟩
    all_goals simp only [isSecond_iff, isContinuation_iff, UInt8.toNat_ofNat']
    all_goals omega

/-- The first character is taken off exactly if a well-formed sequence is in front. -/
theorem decodeFirst_append {bytes : List UInt8} (h : Sequence bytes) {first : UInt8}
    {rest after : List UInt8} (split : first :: rest = bytes ++ after) :
    decodeFirst first rest = (some (scalar bytes), after) := by
  have length := sequenceLength_spec first
  cases h with
  | one small =>
    cases split
    have wanted : sequenceLength first = 1 := length.1.mpr small
    simp [decodeFirst, wanted]
  | two low high second =>
    cases split
    have wanted : sequenceLength first = 2 := by omega
    simp [decodeFirst, wanted, validStart, second]
  | three low high second third =>
    cases split
    have wanted : sequenceLength first = 3 := by omega
    simp [decodeFirst, wanted, validStart, second, third]
  | four low high second third fourth =>
    cases split
    have wanted : sequenceLength first = 4 := by omega
    simp [decodeFirst, wanted, validStart, second, third, fourth]

/-- A valid second byte and as many continuations as are still wanted. -/
theorem sequence_of_valid {first second : UInt8} {more : List UInt8}
    (long : 1 < sequenceLength first) (valid : isSecond first second = true)
    (tail : ((more.take (sequenceLength first - 2)).takeWhile isContinuation).length =
      sequenceLength first - 2) :
    Sequence (first :: (second :: more).take (sequenceLength first - 1)) := by
  have length := sequenceLength_spec first
  obtain two | three | four :
      sequenceLength first = 2 ∨ sequenceLength first = 3 ∨ sequenceLength first = 4 := by omega
  · obtain ⟨low, high⟩ := length.2.1.mp two
    rw [two]
    exact .two low high valid
  · obtain ⟨low, high⟩ := length.2.2.1.mp three
    rw [three] at tail ⊢
    cases more with
    | nil => cases tail
    | cons third more =>
      by_cases continues : isContinuation third = true
      · exact .three low high valid continues
      · simp [continues] at tail
  · obtain ⟨low, high⟩ := length.2.2.2.1.mp four
    rw [four] at tail ⊢
    cases more with
    | nil => cases tail
    | cons third more =>
      by_cases continues : isContinuation third = true
      · cases more with
        | nil => simp [continues] at tail
        | cons fourth more =>
          by_cases ends : isContinuation fourth = true
          · exact .four low high valid continues ends
          · simp [continues, ends] at tail
      · simp [continues] at tail

theorem validStart_eq_iff {first : UInt8} {wanted : Nat} (long : 2 ≤ wanted) {rest : List UInt8} :
    validStart first wanted rest = wanted ↔
      ∃ second more, rest = second :: more ∧ isSecond first second = true ∧
        ((more.take (wanted - 2)).takeWhile isContinuation).length = wanted - 2 := by
  have other : 1 ≠ wanted := by omega
  have behind (n : Nat) : 2 + n = wanted ↔ n = wanted - 2 := by omega
  cases rest with
  | nil => simp [validStart, other]
  | cons second more =>
    by_cases valid : isSecond first second = true
    · simp [validStart, valid, behind]
    · simp [validStart, valid, other]

theorem sequence_of_decodeFirst {first : UInt8} {rest after : List UInt8} {c : Char}
    (decoded : decodeFirst first rest = (some c, after)) :
    ∃ bytes, Sequence bytes ∧ scalar bytes = c ∧ first :: rest = bytes ++ after := by
  unfold decodeFirst at decoded
  dsimp only at decoded
  split at decoded
  · rename_i short
    split at decoded
    · rename_i single
      cases decoded
      exact ⟨[first], .one ((sequenceLength_spec first).1.mp single), rfl, rfl⟩
    · cases decoded
  · rename_i long
    split at decoded
    · rename_i valid
      cases decoded
      obtain ⟨second, more, rfl, isSecond, tail⟩ := (validStart_eq_iff (by omega)).mp valid
      rw [valid]
      refine ⟨first :: (second :: more).take (sequenceLength first - 1), ?_, rfl, ?_⟩
      · exact sequence_of_valid (by omega) isSecond tail
      · rw [List.cons_append, List.take_append_drop]
    · cases decoded

/-- A character is taken off exactly if its bytes are in front. -/
theorem decodeFirst_eq_iff {first : UInt8} {rest after : List UInt8} {c : Char} :
    decodeFirst first rest = (some c, after) ↔
      String.utf8EncodeChar c ++ after = first :: rest := by
  obtain ⟨sequence, same⟩ := sequence_utf8EncodeChar c
  constructor
  · intro decoded
    obtain ⟨bytes, well, rfl, split⟩ := sequence_of_decodeFirst decoded
    rw [utf8EncodeChar_scalar well, split]
  · intro split
    rw [decodeFirst_append sequence split.symm, same]

theorem length_decodeFirst_le (first : UInt8) (rest : List UInt8) :
    (decodeFirst first rest).2.length ≤ rest.length := by
  unfold decodeFirst
  dsimp only
  split
  · exact le_rfl
  · exact List.length_drop ▸ Nat.sub_le _ _

/-- Every character has bytes. -/
theorem nil_eq_map_iff {chars : List Char} :
    [] = chars.map some ↔ chars.flatMap String.utf8EncodeChar = [] := by
  cases chars with
  | nil => simp
  | cons c chars =>
    obtain ⟨sequence, -⟩ := sequence_utf8EncodeChar c
    cases bytes : String.utf8EncodeChar c with
    | nil =>
      rw [bytes] at sequence
      cases sequence
    | cons first rest => simp [bytes]

/-- Decoding yields characters only, exactly on the bytes of these characters. -/
theorem decodeAll_eq_iff {fuel : Nat} {bytes : List UInt8} (enough : bytes.length ≤ fuel)
    {chars : List Char} :
    decodeAll fuel bytes = chars.map some ↔ chars.flatMap String.utf8EncodeChar = bytes := by
  induction fuel generalizing bytes chars with
  | zero =>
    obtain rfl : bytes = [] := List.length_eq_zero_iff.mp (Nat.le_zero.mp enough)
    exact nil_eq_map_iff
  | succ fuel ih =>
    cases bytes with
    | nil => exact nil_eq_map_iff
    | cons first rest =>
      cases chars with
      | nil => simp [decodeAll]
      | cons c chars =>
        have shorter := length_decodeFirst_le first rest
        have room : (decodeFirst first rest).2.length ≤ fuel := by
          rw [List.length_cons] at enough
          omega
        rw [decodeAll, List.map_cons, List.cons.injEq, ih room, List.flatMap_cons,
          ← decodeFirst_eq_iff, Prod.ext_iff]
        exact and_congr_right fun _ => eq_comm

/-- A list of results is one result when none of them fails. -/
theorem mapM_id_iff {α : Type} {xs : List (Option α)} {ys : List α} :
    xs.mapM id = some ys ↔ xs = ys.map some := by
  induction xs generalizing ys with
  | nil => cases ys <;> simp
  | cons x xs ih =>
    cases x with
    | none => cases ys <;> simp
    | some x => cases ys <;> simp [Option.bind_eq_some_iff, ih, and_comm]

/-- `String::from_utf8` accepts the bytes of texts, and gives back the text. -/
theorem fromUtf8_eq_some_iff {bytes : List UInt8} {s : String} :
    fromUtf8 bytes = some s ↔ encode s = bytes := by
  rw [encode, ← decodeAll_eq_iff le_rfl, ← mapM_id_iff, fromUtf8, Option.map_eq_some_iff]
  constructor
  · rintro ⟨chars, decoded, rfl⟩
    rw [String.toList_ofList, decoded]
  · intro decoded
    exact ⟨s.toList, decoded, String.ofList_toList⟩

example : fromUtf8Lossy [0x61, 0xe2, 0x82, 0xac, 0xe2, 0x82, 0x62, 0xff] = "a€�b�" := by
  decide

example : fromUtf8 (encode "Wohnzimmer ü") = some "Wohnzimmer ü" := by decide

end Shairplay.Lib.Utf8
