import Shairplay.Codec.Aac

/-!
# Where the access unit is

Senders put different headers in front of an AAC access unit. The receiver lists the places
where it may start, decodes each of them with a fresh decoder and takes the loudest result.
If none of them decodes, it looks for known headers in a fixed order.
-/

namespace Shairplay.Raop.BufferedAudio

open Shairplay.Codec (AacCodec AacDecoder)

/-- A big-endian `u16`. -/
def beU16 (payload : List UInt8) (p : Nat) : Nat :=
  (payload.getD p 0).toNat * 256 + (payload.getD (p + 1) 0).toNat

/-- The access unit behind a section of AU headers that starts with its length in bits. -/
def extractAacAccessUnit (payload : List UInt8) : Option (List UInt8) :=
  if payload.length < 4 then none
  else
    let auHeadersBits := beU16 payload 0
    if auHeadersBits = 0 ∨ auHeadersBits % 8 ≠ 0 ∨ 128 < auHeadersBits then none
    else
      let dataStart := 2 + auHeadersBits / 8
      if payload.length ≤ dataStart then none
      else if 16 ≤ auHeadersBits then
        let auSizeBits := beU16 payload 2 >>> 3
        if auSizeBits = 0 then none
        else
          let auSizeBytes := (auSizeBits + 7) / 8
          if auSizeBytes ≤ payload.length - dataStart then
            some ((payload.drop dataStart).take auSizeBytes)
          else none
      else
        let au := payload.drop dataStart
        if 8 ≤ au.length then some au else none

/-- The access unit behind a single AU header. -/
def extractAacAccessUnitDirectHeader (payload : List UInt8) : Option (List UInt8) :=
  if payload.length < 3 then none
  else
    let auSizeBits := beU16 payload 0 >>> 3
    if auSizeBits = 0 then none
    else
      let auSizeBytes := (auSizeBits + 7) / 8
      if payload.length - 2 < auSizeBytes then none
      else
        let au := (payload.drop 2).take auSizeBytes
        if 8 ≤ au.length then some au else none

def startsWithAdtsSync (payload : List UInt8) : Bool :=
  2 ≤ payload.length && payload.getD 0 0 == 0xFF && payload.getD 1 0 &&& 0xF0 == 0xF0

/-- A section of AU headers within the first 17 bytes; the first one that strips something
counts. -/
def extractAacAccessUnitShifted (payload : List UInt8) : Option (List UInt8) :=
  (List.range 17).findSome? fun offset =>
    if payload.length < offset + 4 then none
    else
      let view := payload.drop offset
      (extractAacAccessUnit view).filter fun au => au.length < view.length

/-- Payload behind an ADTS header, at the start or behind four bytes. -/
def behindAdts (payload : List UInt8) : List (List UInt8) :=
  (if startsWithAdtsSync payload ∧ 7 < payload.length then [payload.drop 7] else []) ++
  (if 11 < payload.length ∧ startsWithAdtsSync (payload.drop 4) then [payload.drop 11] else [])

def behindHeaders (payload : List UInt8) (offset : Nat) : List (List UInt8) :=
  if payload.length < offset + 4 then []
  else
    let view := payload.drop offset
    (extractAacAccessUnit view).toList ++ (extractAacAccessUnitDirectHeader view).toList

/-- All places where an access unit may start, without short ones and repetitions. -/
def collectAacPayloadCandidates (payload : List UInt8) : List (List UInt8) :=
  let raw := (List.range 33).filterMap fun offset =>
    if payload.length ≤ offset + 8 then none else some (payload.drop offset)
  let candidates := behindAdts payload ++ (List.range 17).flatMap (behindHeaders payload) ++ raw
  candidates.foldl
    (fun unique slice =>
      if slice.length < 8 ∨ slice ∈ unique then unique else unique ++ [slice]) []

def samplesPeakAbs (samples : List ℚ) : ℚ :=
  samples.foldl (fun acc v => if acc < |v| then |v| else acc) 0

/-- The best candidates so far with their peaks: among those that are not silent, and among
the others. -/
structure AacProbe where
  bestNonSilent : Option (List UInt8 × ℚ) := none
  bestAny : Option (List UInt8 × ℚ) := none

def silencePeak : ℚ := 14073749 / 140737488355328

/-- The louder of two candidates, the first one if they are equal. -/
def louder (best : Option (List UInt8 × ℚ)) (candidate : List UInt8) (peak : ℚ) :
    Option (List UInt8 × ℚ) :=
  match best with
  | none => some (candidate, peak)
  | some old => if old.2 < peak then some (candidate, peak) else some old

def AacProbe.consider (probe : AacProbe) (candidate : List UInt8) (samples : List ℚ) : AacProbe :=
  if samples = [] then probe
  else
    let peak := samplesPeakAbs samples
    if silencePeak < peak then
      { probe with bestNonSilent := louder probe.bestNonSilent candidate peak }
    else { probe with bestAny := louder probe.bestAny candidate peak }

section Probing

variable (κ : Type) [AacCodec κ]

/-- Decode each candidate with a decoder of its own. -/
def probeLoop (sampleRate channels : Nat) : List (List UInt8) → AacProbe → AacProbe
  | [], probe => probe
  | candidate :: rest, probe =>
    match (AacDecoder.new sampleRate channels : Except String (AacDecoder κ)) with
    | .error _ => probe
    | .ok decoder =>
      match (decoder.decode candidate).2 with
      | .error _ => probeLoop sampleRate channels rest probe
      | .ok samples =>
        probeLoop sampleRate channels rest (probe.consider candidate samples)

def probeAacCandidates (payload : List UInt8) (sampleRate channels : Nat) : Option (List UInt8) :=
  let probe := probeLoop κ sampleRate channels (collectAacPayloadCandidates payload) {}
  (probe.bestNonSilent.or probe.bestAny).map Prod.fst

end Probing

/-- Without a candidate that decodes: the payload behind the first header that is known. -/
def selectAacPayload (payload : List UInt8) : List UInt8 :=
  match behindAdts payload with
  | slice :: _ => slice
  | [] =>
    ((extractAacAccessUnitShifted payload).or
      (extractAacAccessUnitDirectHeader payload)).getD payload

end Shairplay.Raop.BufferedAudio
