import Shairplay.Codec.Alac.Lossless

/-!
# Verbatim frames

A frame may store its samples as they are, most significant bit first and interleaved.
`decode_frame` returns exactly the samples that stand behind the header, whatever the frame
was meant to hold. So a frame formed from samples of the decoder's depth comes back
unchanged.
-/

namespace Shairplay.Codec

open Lib Lib.Bits
open AlacDecoder (Ready)

variable {w c : Nat}

/-- The bits of one instant, a sample for each channel. -/
def rowBits (row : Vector (BitVec w) c) : List Bool := row.toList.flatMap fun s => field w s.toNat

/-- The little-endian bytes of one instant. -/
def rowBytes (row : Vector (BitVec w) c) : List UInt8 := row.toList.flatMap Block.sampleBytes

/-- A frame with one element for all channels, which stores the rows. -/
def verbatimBits (tag : Fin 16) (sized : Bool) (rows : List (Vector (BitVec w) c)) : List Bool :=
  field 3 (c - 1) ++ (elementHeader tag sized true rows.length ++ rows.flatMap rowBits)

/-- Where the parts of a verbatim frame stand. The rows are what is found behind the header. -/
structure Stored (buf : List UInt8) (tag : Fin 16) (sized : Bool)
    (rows : List (Vector (BitVec w) c)) : Prop where
  element : Holds buf 0 (field 3 (c - 1))
  header : Holds buf 3 (elementHeader tag sized true rows.length)
  payload : Holds buf (3 + (elementHeader tag sized true rows.length).length) (rows.flatMap rowBits)

theorem stored_pack (tag : Fin 16) (sized : Bool) (rows : List (Vector (BitVec w) c))
    (rest : List Bool) : Stored (pack (verbatimBits tag sized rows ++ rest)) tag sized rows := by
  have held := (holds_append.mp (holds_pack (verbatimBits tag sized rows ++ rest))).1
  simp only [verbatimBits, holds_append, length_field, Nat.zero_add] at held
  exact ⟨held.1, held.2.1, held.2.2⟩

theorem toList_one (row : Vector (BitVec w) 1) : row.toList = [row[0]] := by
  apply List.ext_getElem (by simp)
  intro i inside _
  have : i = 0 := by
    rw [Vector.length_toList] at inside
    omega
  subst this
  simp

theorem toList_two (row : Vector (BitVec w) 2) : row.toList = [row[0], row[1]] := by
  apply List.ext_getElem (by simp)
  intro i inside _
  rw [Vector.length_toList] at inside
  rcases (show i = 0 ∨ i = 1 by omega) with rfl | rfl <;> simp

theorem rowBits_one (row : Vector (BitVec w) 1) : rowBits row = field w row[0].toNat := by
  rw [rowBits, toList_one, List.flatMap_singleton]

theorem rowBits_two (row : Vector (BitVec w) 2) :
    rowBits row = field w row[0].toNat ++ field w row[1].toNat := by
  rw [rowBits, toList_two, List.flatMap_cons, List.flatMap_singleton]

@[simp] theorem length_rowBits (row : Vector (BitVec w) c) : (rowBits row).length = c * w := by
  rw [rowBits, List.length_flatMap]
  simp [List.sum_replicate]

theorem length_rowBytes (row : Vector (BitVec w) c) : (rowBytes row).length = w / 8 * c := by
  have single (s : BitVec w) : (Block.sampleBytes s).length = w / 8 := Bytes.length_leBytes _ _
  rw [rowBytes, length_flatMap_const single, Vector.length_toList, Nat.mul_comm]

section Samples

variable {buf : List UInt8} {q : Nat}

theorem readSample16_seek (s : BitVec 16) (held : Holds buf q (field 16 s.toNat)) :
    readSample16 16 (.seek buf q) = (s.signExtend 32, .seek buf (q + 16)) := by
  have read : (BitReader.seek buf q).readbits 16 = _ :=
    BitReader.readbits_field 16 held (by decide) s.isLt
  have narrowed : (BitVec.ofNat 32 s.toNat : Word).setWidth 16 = s := by simp
  have extended : signExtend32 (BitVec.ofNat 32 s.toNat) 16 = _ :=
    signExtend32_eq (n := 16) _ (by decide) (by decide)
  rw [readSample16, read]
  dsimp only
  rw [extended, narrowed]

/-- A sample of 24 bits is read in two parts. -/
theorem readSample24_seek (s : BitVec 24) (held : Holds buf q (field 24 s.toNat)) :
    readSample24 24 (.seek buf q) = (s.signExtend 32, .seek buf (q + 24)) := by
  have parts : field 24 s.toNat = _ := field_add 16 8 s.toNat
  rw [parts, holds_append, length_field] at held
  have small := s.isLt
  have high : (BitReader.seek buf q).readbits 16 = _ :=
    BitReader.readbits_field 16 held.1 (by decide) (by omega)
  have low : (BitReader.seek buf (q + 16)).readbits 8 = _ :=
    BitReader.readbits_seek buf (q + 16) 8 (by decide)
  rw [value_of_holds held.2] at low
  have whole : shl (BitVec.ofNat 32 (s.toNat / 2 ^ 8)) 8 |||
      BitVec.ofNat 32 (s.toNat % 2 ^ 8) = (BitVec.ofNat 32 s.toNat : Word) := by
    have amount : (8 : Word).toNat % 32 = 8 := rfl
    have high : s.toNat / 2 ^ 8 % 2 ^ 32 = s.toNat / 2 ^ 8 := Nat.mod_eq_of_lt (by omega)
    have low : s.toNat % 2 ^ 8 % 2 ^ 32 = s.toNat % 2 ^ 8 := Nat.mod_eq_of_lt (by omega)
    have all : s.toNat % 2 ^ 32 = s.toNat := Nat.mod_eq_of_lt (by omega)
    have shifted : s.toNat / 2 ^ 8 * 2 ^ 8 % 2 ^ 32 = s.toNat / 2 ^ 8 * 2 ^ 8 :=
      Nat.mod_eq_of_lt (by omega)
    apply BitVec.eq_of_toNat_eq
    rw [BitVec.toNat_or, shl, amount, BitVec.toNat_shiftLeft, BitVec.toNat_ofNat,
      BitVec.toNat_ofNat, BitVec.toNat_ofNat, high, low, all, Nat.shiftLeft_eq, shifted,
      ← Nat.shiftLeft_eq, ← Nat.shiftLeft_add_eq_or_of_lt (Nat.mod_lt _ (by decide)),
      Nat.shiftLeft_eq]
    omega
  have narrowed : (BitVec.ofNat 32 s.toNat : Word).setWidth 24 = s := by simp
  have extended : signExtend24 (BitVec.ofNat 32 s.toNat) = _ :=
    signExtend32_eq (n := 24) _ (by decide) (by decide)
  have width : (24 - 16 : Word) = 8 := rfl
  rw [readSample24, high]
  dsimp only
  rw [width, low]
  dsimp only
  rw [whole, extended, narrowed]

/-- A stored sample of the decoder's depth is read back. -/
theorem verbatim_seek {sampleSize : Word} (depth : w = 16 ∨ w = 24)
    (size : sampleSize = BitVec.ofNat 32 w) (s : BitVec w) (held : Holds buf q (field w s.toNat)) :
    verbatim sampleSize (.seek buf q) = (s.signExtend 32, .seek buf (q + w)) := by
  subst size
  rcases depth with rfl | rfl
  · rw [verbatim, if_pos (by decide)]
    exact readSample16_seek s held
  · rw [verbatim, if_neg (by decide)]
    exact readSample24_seek s held

end Samples

section Decoding

variable {dec : AlacDecoder} {buf output : List UInt8} {tag : Fin 16} {sized : Bool} {q : Nat}

def storedHeader (count bytesPerSample : Nat) : SubframeHeader :=
  ⟨count, count * bytesPerSample, 0, 1⟩

theorem monoContent_stored (ready : Ready dec) (size : dec.sampleSizeConfig.toNat = w)
    (rows : List (Vector (BitVec w) 1)) (held : Holds buf q (rows.flatMap rowBits))
    (bytesPerSample : Nat) :
    (monoContent dec (storedHeader rows.length bytesPerSample) (.seek buf q)).a =
      (rows.map fun row => row[0]).map (BitVec.signExtend 32) := by
  have depth := Block.depth_of_ready ready size
  have reads (row : Vector (BitVec w) 1) (q : Nat) (held : Holds buf q (rowBits row)) :
      verbatim dec.sampleSize (.seek buf q) =
        (row[0].signExtend 32, .seek buf (q + (rowBits row).length)) := by
    rw [rowBits_one] at held ⊢
    rw [verbatim_seek depth (Block.sampleSize_eq size) _ held, length_field]
  have read := BitReader.produce_seek reads rows held
  rw [monoContent, if_neg (by simp [storedHeader]), List.map_map]
  exact congrArg Prod.fst read

theorem stereoContent_stored (ready : Ready dec) (size : dec.sampleSizeConfig.toNat = w)
    (rows : List (Vector (BitVec w) 2)) (held : Holds buf q (rows.flatMap rowBits))
    (bytesPerSample : Nat) :
    unmixed (stereoContent dec (storedHeader rows.length bytesPerSample) (.seek buf q)) =
      (rows.map fun row => (row[0], row[1])).map fun s =>
        (s.1.signExtend 32, s.2.signExtend 32) := by
  have depth := Block.depth_of_ready ready size
  have reads (row : Vector (BitVec w) 2) (q : Nat) (held : Holds buf q (rowBits row)) :
      readPair (verbatim dec.sampleSize) (.seek buf q) =
        ((row[0].signExtend 32, row[1].signExtend 32), .seek buf (q + (rowBits row).length)) := by
    rw [rowBits_two] at held ⊢
    rw [holds_append, length_field] at held
    rw [readPair, verbatim_seek depth (Block.sampleSize_eq size) _ held.1]
    dsimp only
    rw [verbatim_seek depth (Block.sampleSize_eq size) _ held.2, List.length_append,
      length_field, length_field, Nat.add_assoc]
  have read := BitReader.produce_seek reads rows held
  have pairs : (Attempt.produce (readPair (verbatim dec.sampleSize)) rows.length
      (.seek buf q)).1 = _ := congrArg Prod.fst read
  rw [stereoContent, if_neg (by simp [storedHeader]), unmixed]
  dsimp only [storedHeader]
  rw [pairs, List.map_map, List.map_map, List.map_map, List.zipWith_map, List.zipWith_self]
  rfl

/-- A ready decoder decodes a verbatim frame to the rows that stand in it. A frame that does
not give their number has a full one. -/
theorem decodeFrame_stored {rows : List (Vector (BitVec w) c)} (stored : Stored buf tag sized rows)
    (ready : Ready dec) (size : dec.sampleSizeConfig.toNat = w)
    (channels : dec.numChannels.toNat = c) (nonempty : 0 < rows.length)
    (inside : rows.length ≤ dec.maxSamplesPerFrame.toNat)
    (full : sized = false → rows.length = dec.maxSamplesPerFrame.toNat)
    (room : dec.maxSamplesPerFrame.toNat * dec.bytesPerSample.toNat ≤ output.length) :
    (dec.decodeFrame buf output).2 = (overwrite (rows.flatMap rowBytes) output,
      some (rows.length * dec.bytesPerSample.toNat)) := by
  have parsed : dec.header (.seek buf 3) =
      (storedHeader rows.length dec.bytesPerSample.toNat,
        .seek buf (3 + (elementHeader tag sized true rows.length).length)) :=
    parseSubframeHeader_seek (Nat.lt_of_le_of_lt inside dec.maxSamplesPerFrame.isLt)
      (fun unsized => ⟨(full unsized).symm, by rw [full unsized]⟩) stored.header
  have opened : Opened dec (storedHeader rows.length dec.bytesPerSample.toNat) output.length :=
    ⟨nonempty, inside, rfl, (Nat.mul_le_mul_right _ inside).trans room⟩
  have element : Holds buf 0 (field 3 (dec.numChannels.toNat - 1)) := by
    rw [channels]
    exact stored.element
  obtain ⟨mono, stereo⟩ := plan_opened ready element parsed opened
    (BitVec.le_def.mpr (Nat.zero_le _)) room
  have orders (orders : List Nat) (none : orders = []) :
      OrdersFit orders (storedHeader rows.length dec.bytesPerSample.toNat).outputSamples := by
    intro m mem
    rw [none] at mem
    cases mem
  rw [decodeFrame_plan]
  rcases ready.channels with one | two
  · obtain rfl : c = 1 := by rw [← channels, one]; rfl
    have content := monoContent_stored ready size rows stored.payload dec.bytesPerSample.toNat
    rw [mono one, mono_outcome ready one opened (orders _ rfl),
      monoBytes_plain ready size rfl content, List.flatMap_map]
    have bytes : (fun row : Vector (BitVec w) 1 => Block.sampleBytes row[0]) = rowBytes := by
      funext row
      rw [rowBytes, toList_one, List.flatMap_singleton]
    rw [bytes]
    rfl
  · obtain rfl : c = 2 := by rw [← channels, two]; rfl
    have content := stereoContent_stored ready size rows stored.payload dec.bytesPerSample.toNat
    rw [stereo two, stereo_outcome ready two opened (orders _ rfl),
      stereoBytes_plain ready size rfl content, List.flatMap_map]
    have bytes : (fun row : Vector (BitVec w) 2 =>
        Block.sampleBytes row[0] ++ Block.sampleBytes row[1]) = rowBytes := by
      funext row
      rw [rowBytes, toList_two, List.flatMap_cons, List.flatMap_singleton]
    rw [bytes]
    rfl

end Decoding

/-- Verbatim frames are lossless: for every supported configuration and every non-empty list
of at most a frame of samples for each channel, a frame that stores them without low bytes
of their own, with its number of samples or, if it is full, without, decodes to exactly these
samples, on every decoder with that configuration and in every output with room for a full
frame. -/
theorem verbatim_lossless (rows : List (Vector (BitVec w) c)) (config : List UInt8)
    (supported : Supports config w c) (nonempty : 0 < rows.length)
    (inside : rows.length ≤ frameLength config) (tag : Fin 16) (sized : Bool)
    (full : sized = false → rows.length = frameLength config) (rest : List Bool)
    (sampleSize numChannels : Word) (history : List (List UInt8 × List UInt8))
    (output : List UInt8) (room : frameLength config * (w / 8 * c) ≤ output.length) :
    let dec := ((AlacDecoder.new sampleSize numChannels).setInfo config).after history
    (dec.decodeFrame (pack (verbatimBits tag sized rows ++ rest)) output).2 =
      (overwrite (rows.flatMap rowBytes) output, some (rows.length * (w / 8 * c))) := by
  intro dec
  obtain ⟨ready, size, channels, frames⟩ := setInfo_supported supported
    (Nat.lt_of_lt_of_le nonempty inside) (AlacDecoder.new sampleSize numChannels)
  have same : dec.blank = ((AlacDecoder.new sampleSize numChannels).setInfo config).blank :=
    AlacDecoder.blank_after _ history
  have ready := ready.congr same
  rw [← sampleSizeConfig_congr same] at size
  rw [← numChannels_congr same] at channels
  rw [← AlacDecoder.maxSamplesPerFrame_congr same] at frames
  have bytes : dec.bytesPerSample.toNat = w / 8 * c := by
    rw [bytesPerSample_eq ready size, channels]
  rw [← frames] at inside full room
  rw [← bytes] at room ⊢
  exact decodeFrame_stored (stored_pack tag sized rows rest) ready size channels nonempty inside
    full room

/-- The smallest and the largest sample, and some between. -/
def edgeRows : List (Vector (BitVec 24) 2) := [#v[8388608, 5], #v[8388607, 16777215], #v[0, 66051]]

/-- Three instants of at most four, behind them the end element, on a decoder that has decoded
another frame. -/
theorem verbatim_lossless_rows :
    let dec := ((AlacDecoder.new 24 2).setInfo quartetConfig).after
      [(pack (verbatimBits 0 true (edgeRows.take 1)), List.replicate 24 9)]
    (dec.decodeFrame (pack (verbatimBits 3 true edgeRows ++ field 3 7)) (List.replicate 24 0)).2 =
      (overwrite (edgeRows.flatMap rowBytes) (List.replicate 24 0),
        some (edgeRows.length * (24 / 8 * 2))) :=
  verbatim_lossless edgeRows quartetConfig ⟨by decide, by decide, .inr rfl, by decide, .inr rfl⟩
    (by decide) (by decide) 3 true (by decide) (field 3 7) 24 2 _ (List.replicate 24 0) (by decide)

end Shairplay.Codec
