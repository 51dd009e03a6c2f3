import Shairplay.Codec.Resample

/-!
# AAC decoding

The stream formats that the SSRC of a buffered stream names, and the decoder that frames a
raw access unit with an ADTS header before it hands it to the AAC library.
-/

namespace Shairplay.Codec

/-- The stream formats an SSRC may name. -/
inductive AudioSsrc
  | none
  | alac44100S16Stereo
  | alac48000S24Stereo
  | aac44100F24Stereo
  | aac48000F24Stereo
  | aac48000F24Surround51
  | aac48000F24Surround71
  deriving DecidableEq

namespace AudioSsrc

def fromU32 (v : BitVec 32) : AudioSsrc :=
  if v = 0x0000FACE then .alac44100S16Stereo
  else if v = 0x15000000 then .alac48000S24Stereo
  else if v = 0x16000000 then .aac44100F24Stereo
  else if v = 0x17000000 then .aac48000F24Stereo
  else if v = 0x27000000 then .aac48000F24Surround51
  else if v = 0x28000000 then .aac48000F24Surround71
  else .none

def isAlac : AudioSsrc → Bool
  | .alac44100S16Stereo | .alac48000S24Stereo => true
  | _ => false

def sampleRate : AudioSsrc → Nat
  | .alac44100S16Stereo | .aac44100F24Stereo => 44100
  | _ => 48000

def channels : AudioSsrc → Nat
  | .aac48000F24Surround51 => 6
  | .aac48000F24Surround71 => 8
  | _ => 2

def bitDepth : AudioSsrc → Option Nat
  | .alac44100S16Stereo => some 16
  | .alac48000S24Stereo => some 24
  | _ => Option.none

/-- The name that messages show. -/
def debug : AudioSsrc → String
  | .none => "None"
  | .alac44100S16Stereo => "Alac44100S16Stereo"
  | .alac48000S24Stereo => "Alac48000S24Stereo"
  | .aac44100F24Stereo => "Aac44100F24Stereo"
  | .aac48000F24Stereo => "Aac48000F24Stereo"
  | .aac48000F24Surround51 => "Aac48000F24Surround51"
  | .aac48000F24Surround71 => "Aac48000F24Surround71"

end AudioSsrc

def adtsFrequencyIndex (rate : Nat) : Option (BitVec 8) :=
  (([96000, 88200, 64000, 48000, 44100, 32000, 24000, 22050, 16000, 12000, 11025, 8000, 7350].zip
    (List.range 13)).lookup rate).map (BitVec.ofNat 8)

/-- The 7 bytes in front of a frame of `packetLen` bytes, which count too. -/
def adtsHeader (packetLen rate channels : Nat) : Except String (List UInt8) :=
  if packetLen < 7 then .error "ADTS frame length must include 7-byte header"
  else if 0x1FFF < packetLen then
    .error ("ADTS frame length exceeds 13-bit limit: " ++ toString packetLen ++ " > 8191")
  else if 7 < channels then
    .error ("ADTS channel configuration out of range: " ++ toString channels)
  else
    match adtsFrequencyIndex rate with
    | none => .error ("Unsupported ADTS sample rate: " ++ toString rate ++ " Hz")
    | some freqIdx =>
      let profile : BitVec 8 := 2
      let chanCfg := BitVec.ofNat 8 channels
      let len := BitVec.ofNat 16 packetLen
      .ok [0xFF, 0xF9, ⟨((profile - 1) <<< 6) ||| (freqIdx <<< 2) ||| (chanCfg >>> 2)⟩,
        ⟨((chanCfg &&& 3) <<< 6) ||| (len >>> 11).setWidth 8⟩,
        ⟨((len &&& 0x7FF) >>> 3).setWidth 8⟩,
        ⟨((len &&& 7).setWidth 8 <<< 5) ||| 0x1F⟩, 0xFC]

def wrapAdts (rawAac : List UInt8) (rate channels : Nat) : Except String (List UInt8) := do
  let header ← adtsHeader (rawAac.length + 7) rate channels
  .ok (header ++ rawAac)

example : adtsHeader 107 44100 2 = .ok [0xff, 0xf9, 0x50, 0x80, 0x0d, 0x7f, 0xfc] := by
  decide +kernel

/-- The speaker positions that a decoder is created for. -/
inductive ChannelLayout
  | mono
  | stereo
  | surround51
  | surround71
  deriving DecidableEq

/-- The AAC decoder of the codec library. -/
class AacCodec (κ : Type) where
  makeAudioDecoder : (sampleRate : Nat) → ChannelLayout → Except String κ
  decodeRef : κ → List UInt8 → κ × Except String (List ℚ)

structure AacDecoder (κ : Type) where
  decoder : κ
  sampleRate : Nat
  adtsChannelConfig : Nat

namespace AacDecoder

variable {κ : Type} [AacCodec κ]

def layout (channels : Nat) : ChannelLayout :=
  if channels = 1 then .mono
  else if channels = 6 then .surround51
  else if channels = 8 then .surround71
  else .stereo

def new (sampleRate channels : Nat) : Except String (AacDecoder κ) := do
  let adtsChannelConfig ←
    if 1 ≤ channels ∧ channels ≤ 7 then .ok channels
    else if channels = 8 then .ok 7
    else .error ("Unsupported AAC channel count for ADTS framing: " ++ toString channels)
  let decoder ← (AacCodec.makeAudioDecoder sampleRate (layout channels)).mapError
    ("AAC decoder init failed: " ++ ·)
  .ok ⟨decoder, sampleRate, adtsChannelConfig⟩

/-- Decode a raw access unit. A frame that cannot be wrapped does not reach the library. -/
def decode (dec : AacDecoder κ) (rawAac : List UInt8) : AacDecoder κ × Except String (List ℚ) :=
  match wrapAdts rawAac dec.sampleRate dec.adtsChannelConfig with
  | .error message => (dec, .error message)
  | .ok framed =>
    let decoded := AacCodec.decodeRef dec.decoder framed
    ({ dec with decoder := decoded.1 }, decoded.2.mapError ("AAC decode failed: " ++ ·))

end AacDecoder

end Shairplay.Codec
