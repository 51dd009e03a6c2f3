import Shairplay.Codec.Alac.Buffers

/-!
# The result of a frame

`plan` is what a frame asks for once its header has been read: nothing, or the samples of
one or two channels. The main results say what `decode_frame` returns and writes in each
case: the bytes of the content if the orders of the predictors fit, a panic before
anything is written if they do not.
-/

namespace Shairplay.Codec

open Lib Lib.Attempt
open AlacDecoder (Ready)

/-- The three bytes of a 24-bit sample. -/
def le24 (x : Word) : List UInt8 := [lowByte x, lowByte (sar x 8), lowByte (sar x 16)]

/-- The 24-bit samples of a mono frame. -/
def monoSamples24 (hdr : SubframeHeader) (c : Content) : List Word :=
  if 0 < hdr.uncompressedBytes ∧ hdr.isNotCompressed = 0 then
    List.zipWith (withLowBytes hdr.uncompressedBytes) c.a c.lowA
  else c.a

/-- Left and right samples, without low bytes. -/
def unmixed (c : Content) : List (Word × Word) :=
  List.zipWith (unmix c.shift c.leftweight) c.a c.b

/-- Put low bytes below both samples of a pair. -/
def withLowPair (uncompressedBytes : Word) (samples low : Word × Word) : Word × Word :=
  (withLowBytes uncompressedBytes samples.1 low.1, withLowBytes uncompressedBytes samples.2 low.2)

/-- The 24-bit samples of a stereo frame. -/
def stereoSamples24 (hdr : SubframeHeader) (c : Content) : List (Word × Word) :=
  if 0 < hdr.uncompressedBytes then
    List.zipWith (withLowPair hdr.uncompressedBytes) (unmixed c) (List.zip c.lowA c.lowB)
  else unmixed c

/-- Both samples of a pair, left first. -/
def pairBytes (bytes : Word → List UInt8) (samples : Word × Word) : List UInt8 :=
  bytes samples.1 ++ bytes samples.2

def monoBytes (dec : AlacDecoder) (hdr : SubframeHeader) (c : Content) : List UInt8 :=
  if dec.sampleSizeConfig = 16 then c.a.flatMap le16 else (monoSamples24 hdr c).flatMap le24

def stereoBytes (dec : AlacDecoder) (hdr : SubframeHeader) (c : Content) : List UInt8 :=
  if dec.sampleSizeConfig = 16 then (unmixed c).flatMap (pairBytes le16)
  else (stereoSamples24 hdr c).flatMap (pairBytes le24)

@[simp] theorem length_le16 (x : Word) : (le16 x).length = 2 := rfl

@[simp] theorem length_le24 (x : Word) : (le24 x).length = 3 := rfl

theorem length_pairBytes_le16 (samples : Word × Word) : (pairBytes le16 samples).length = 4 := rfl

theorem length_pairBytes_le24 (samples : Word × Word) : (pairBytes le24 samples).length = 6 := rfl

theorem length_flatMap_const {α : Type} {f : α → List UInt8} {w : Nat}
    (width : ∀ x, (f x).length = w) (xs : List α) : (xs.flatMap f).length = xs.length * w := by
  induction xs with
  | nil => simp
  | cons x xs ih =>
    rw [List.flatMap_cons, List.length_append, ih, width, List.length_cons, Nat.succ_mul]
    omega

section Writing

variable {s : FrameState} {done out : List UInt8}

theorem writeBytes_run (bytes : List UInt8) (room : done.length + bytes.length ≤ out.length) :
    Decode.writeBytes done.length bytes (s.setOutput (overwrite done out)) =
      (some (), s.setOutput (overwrite (done ++ bytes) out)) :=
  congrArg (fun x => (x.1, s.setOutput x.2)) (writeSlice_overwrite bytes room)

theorem writeByte_run (value : UInt8) (room : done.length < out.length) :
    Decode.writeByte done.length value (s.setOutput (overwrite done out)) =
      (some (), s.setOutput (overwrite (done ++ [value]) out)) :=
  congrArg (fun x => (x.1, s.setOutput x.2)) (write_overwrite value room)

/-- Three bytes written one after the other. -/
theorem writeThree_bind {α : Type} (x : Word) (room : done.length + 3 ≤ out.length)
    (f : Unit → Decode α) :
    (Decode.writeByte done.length (lowByte x) >>= fun _ =>
      Decode.writeByte (done.length + 1) (lowByte (sar x 8)) >>= fun _ =>
      Decode.writeByte (done.length + 2) (lowByte (sar x 16)) >>= f)
        (s.setOutput (overwrite done out)) =
      f () (s.setOutput (overwrite (done ++ le24 x) out)) := by
  have one : done.length + 1 = (done ++ [lowByte x]).length := by simp
  have two : done.length + 2 = (done ++ [lowByte x] ++ [lowByte (sar x 8)]).length := by simp
  rw [bind_of_some (writeByte_run _ (by omega)), one,
    bind_of_some (writeByte_run _ (by simp; omega)), two,
    bind_of_some (writeByte_run _ (by simp; omega))]
  simp [le24]

theorem writeThree_run (x : Word) (room : done.length + 3 ≤ out.length) :
    (Decode.writeByte done.length (lowByte x) >>= fun _ =>
      Decode.writeByte (done.length + 1) (lowByte (sar x 8)) >>= fun _ =>
      Decode.writeByte (done.length + 2) (lowByte (sar x 16)))
        (s.setOutput (overwrite done out)) =
      (some (), s.setOutput (overwrite (done ++ le24 x) out)) := by
  have one : done.length + 1 = (done ++ [lowByte x]).length := by simp
  have two : done.length + 2 = (done ++ [lowByte x] ++ [lowByte (sar x 8)]).length := by simp
  rw [bind_of_some (writeByte_run _ (by omega)), one,
    bind_of_some (writeByte_run _ (by simp; omega)), two, writeByte_run _ (by simp; omega)]
  simp [le24]

theorem getElem?_of_front {α : Type} {values buffer : List α} {i : Nat} {v : α}
    (front : values <+: buffer) (here : values[i]? = some v) : buffer[i]? = some v := by
  obtain ⟨rest, rfl⟩ := front
  rw [List.getElem?_append_left (List.getElem?_eq_some_iff.mp here).1]
  exact here

theorem getElem?_of_next {α : Type} {done values buffer : List α} {v : α}
    (next : done ++ [v] <+: values) (front : values <+: buffer) : buffer[done.length]? = some v :=
  getElem?_of_front (next.trans front) List.getElem?_concat_length

/-- The next value of a zip comes from the next values of its parts. -/
theorem zipWith_next {α β γ : Type} {f : α → β → γ} {xs : List α} {ys : List β} {done : List γ}
    {v : γ} (next : done ++ [v] <+: List.zipWith f xs ys) :
    ∃ x y, xs[done.length]? = some x ∧ ys[done.length]? = some y ∧ v = f x y := by
  have here := getElem?_of_next next (List.prefix_refl _)
  rw [List.getElem?_zipWith_eq_some] at here
  obtain ⟨x, y, hx, hy, rfl⟩ := here
  exact ⟨x, y, hx, hy, rfl⟩

theorem sampleOf_bind {α : Type} {buffer : AlacDecoder → List Word} {i : Nat} {x : Word}
    (here : (buffer s.dec)[i]? = some x) (out : List UInt8) (f : Word → Decode α) :
    (Decode.sampleOf buffer i >>= f) (s.setOutput out) = f x (s.setOutput out) := by
  apply bind_of_some
  exact congrArg (fun o => (o, s.setOutput out)) here

/-- A loop that appends the bytes of one value after the other to the output. -/
theorem forRange_chunks {α : Type} {body : Nat → Decode Unit} {bytes : α → List UInt8}
    {values : List α} {n : Nat} (count : values.length = n)
    (round : ∀ done v, done ++ [v] <+: values →
      body done.length (s.setOutput (overwrite (done.flatMap bytes) s.output)) =
        (some (), s.setOutput (overwrite (done.flatMap bytes ++ bytes v) s.output))) :
    forRange n body s = (some (), s.setOutput (overwrite (values.flatMap bytes) s.output)) := by
  subst count
  refine forRange_append
    (fun done => s.setOutput (overwrite (done.flatMap bytes) s.output)) values ?_
  intro done v next
  rw [round done v next]
  simp

/-- Where the next chunk goes, and that there is room for it. -/
theorem chunk_position {α : Type} {bytes : α → List UInt8} {w : Nat}
    (width : ∀ x, (bytes x).length = w) {values done : List α} {v : α}
    (next : done ++ [v] <+: values) {room : Nat} (fits : values.length * w ≤ room) :
    (done.flatMap bytes).length = done.length * w ∧ (done.flatMap bytes).length + w ≤ room := by
  have short := next.length_le
  rw [List.length_append, List.length_singleton] at short
  have length := length_flatMap_const width done
  refine ⟨length, ?_⟩
  rw [length, ← Nat.succ_mul]
  exact (Nat.mul_le_mul_right w short).trans fits

variable {hdr : SubframeHeader} {c : Content}

theorem writeMono16_run (front : c.a <+: s.dec.outputsamplesBufferA)
    (count : c.a.length = hdr.outputSamples) (room : hdr.outputSamples * 2 ≤ s.output.length) :
    writeMono16 1 hdr s = (some (), s.setOutput (overwrite (c.a.flatMap le16) s.output)) := by
  refine forRange_chunks count fun done v next => ?_
  rw [← count] at room
  obtain ⟨position, fits⟩ := chunk_position length_le16 next room
  rw [sampleOf_bind (getElem?_of_next next front), Nat.mul_one, ← position]
  exact writeBytes_run _ fits

theorem monoSample24_bind {α : Type} (front : c.a <+: s.dec.outputsamplesBufferA)
    (low : c.lowA <+: s.dec.uncompressedBytesBufferA) {done : List Word} {v : Word}
    (next : done ++ [v] <+: monoSamples24 hdr c) (out : List UInt8) (f : Word → Decode α) :
    (monoSample24 hdr done.length >>= f) (s.setOutput out) = f v (s.setOutput out) := by
  apply bind_of_some
  rw [monoSamples24] at next
  split at next
  · rename_i extra
    obtain ⟨x, y, hx, hy, rfl⟩ := zipWith_next next
    rw [monoSample24, sampleOf_bind (getElem?_of_front front hx), if_pos extra,
      sampleOf_bind (getElem?_of_front low hy)]
    rfl
  · rename_i plain
    rw [monoSample24, sampleOf_bind (getElem?_of_next next front), if_neg plain]
    rfl

theorem writeMono24_run (front : c.a <+: s.dec.outputsamplesBufferA)
    (low : c.lowA <+: s.dec.uncompressedBytesBufferA)
    (count : (monoSamples24 hdr c).length = hdr.outputSamples)
    (room : hdr.outputSamples * 3 ≤ s.output.length) :
    writeMono24 1 hdr s =
      (some (), s.setOutput (overwrite ((monoSamples24 hdr c).flatMap le24) s.output)) := by
  refine forRange_chunks count fun done v next => ?_
  rw [← count] at room
  obtain ⟨position, fits⟩ := chunk_position length_le24 next room
  rw [monoSample24_bind front low next, Nat.mul_one, ← position]
  exact writeThree_run v fits

theorem deinterlace16_run (frontA : c.a <+: s.dec.outputsamplesBufferA)
    (frontB : c.b <+: s.dec.outputsamplesBufferB) {count : Nat}
    (length : (unmixed c).length = count) (room : count * 4 ≤ s.output.length) :
    deinterlace16 2 count c.shift c.leftweight s =
      (some (), s.setOutput (overwrite ((unmixed c).flatMap (pairBytes le16)) s.output)) := by
  refine forRange_chunks length fun done v next => ?_
  rw [← length] at room
  obtain ⟨position, fits⟩ := chunk_position length_pairBytes_le16 next room
  obtain ⟨a, b, ha, hb, rfl⟩ := zipWith_next next
  rw [sampleOf_bind (getElem?_of_front frontA ha), sampleOf_bind (getElem?_of_front frontB hb)]
  have left : done.length * 2 * 2 = (done.flatMap (pairBytes le16)).length := by omega
  rw [left, bind_of_some (writeBytes_run _ (by rw [length_le16]; omega))]
  have right : (done.length * 2 + 1) * 2 = (done.flatMap (pairBytes le16) ++
      le16 (unmix c.shift c.leftweight a b).1).length := by
    rw [List.length_append, length_le16]
    omega
  rw [right, writeBytes_run _ (by rw [← right, length_le16]; omega), pairBytes, List.append_assoc]

theorem samples24_bind {α : Type} (frontA : c.a <+: s.dec.outputsamplesBufferA)
    (frontB : c.b <+: s.dec.outputsamplesBufferB) (lowA : c.lowA <+: s.dec.uncompressedBytesBufferA)
    (lowB : c.lowB <+: s.dec.uncompressedBytesBufferB) {done : List (Word × Word)} {v : Word × Word}
    (next : done ++ [v] <+: stereoSamples24 hdr c) (out : List UInt8) (f : Word × Word → Decode α) :
    (samples24 hdr.uncompressedBytes c.shift c.leftweight done.length >>= f) (s.setOutput out) =
      f v (s.setOutput out) := by
  apply bind_of_some
  rw [stereoSamples24] at next
  split at next
  · rename_i extra
    obtain ⟨mixed, low, hmixed, hlow, rfl⟩ := zipWith_next next
    rw [unmixed, List.getElem?_zipWith_eq_some] at hmixed
    obtain ⟨a, b, ha, hb, rfl⟩ := hmixed
    rw [List.zip, List.getElem?_zipWith_eq_some] at hlow
    obtain ⟨x, y, hx, hy, rfl⟩ := hlow
    rw [samples24, sampleOf_bind (getElem?_of_front frontA ha),
      sampleOf_bind (getElem?_of_front frontB hb), if_pos extra,
      sampleOf_bind (getElem?_of_front lowA hx), sampleOf_bind (getElem?_of_front lowB hy)]
    rfl
  · rename_i plain
    obtain ⟨a, b, ha, hb, rfl⟩ := zipWith_next next
    rw [samples24, sampleOf_bind (getElem?_of_front frontA ha),
      sampleOf_bind (getElem?_of_front frontB hb), if_neg plain]
    rfl

theorem deinterlace24_run (frontA : c.a <+: s.dec.outputsamplesBufferA)
    (frontB : c.b <+: s.dec.outputsamplesBufferB) (lowA : c.lowA <+: s.dec.uncompressedBytesBufferA)
    (lowB : c.lowB <+: s.dec.uncompressedBytesBufferB) {count : Nat}
    (length : (stereoSamples24 hdr c).length = count) (room : count * 6 ≤ s.output.length) :
    deinterlace24 hdr.uncompressedBytes 2 count c.shift c.leftweight s =
      (some (), s.setOutput (overwrite ((stereoSamples24 hdr c).flatMap (pairBytes le24))
        s.output)) := by
  refine forRange_chunks length fun done v next => ?_
  rw [← length] at room
  obtain ⟨position, fits⟩ := chunk_position length_pairBytes_le24 next room
  rw [samples24_bind frontA frontB lowA lowB next]
  have base : done.length * 2 * 3 = (done.flatMap (pairBytes le24)).length := by omega
  rw [base, writeThree_bind v.1 (by omega)]
  have right : (done.flatMap (pairBytes le24)).length + 3 =
      (done.flatMap (pairBytes le24) ++ le24 v.1).length := by
    rw [List.length_append, length_le24]
  rw [pairBytes, ← List.append_assoc, ← writeThree_run v.2 (by rw [← right]; omega), ← right]

end Writing

end Shairplay.Codec
