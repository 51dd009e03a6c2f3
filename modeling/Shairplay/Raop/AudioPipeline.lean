import Shairplay.Crypto.Primitives

/-!
# Packets of the second protocol version

A packet is an RTP header, a ciphertext with its tag, and the tail of the nonce. The
timestamp and the SSRC of the header are authenticated with it.
-/

namespace Shairplay.Raop

open Crypto

def rtpHeaderLen : Nat := 12

def chachaTagLen : Nat := 16

def nonceTrailLen : Nat := 8

/-- What a session is told about the samples it will get. -/
structure AudioFormat where
  bits : Nat := 32
  channels : Nat
  sampleRate : Nat
  deriving DecidableEq

/-- The plaintext of a packet, unless it is too short or its tag is wrong. -/
def decryptRtpChacha (aead : Aead) (key packet : List UInt8) : Option (List UInt8) :=
  if packet.length < rtpHeaderLen + chachaTagLen + nonceTrailLen then none
  else
    let nonce := List.replicate 4 0 ++ packet.drop (packet.length - nonceTrailLen)
    let aad := (packet.take 12).drop 4
    let ciphertext := (packet.take (packet.length - nonceTrailLen)).drop rtpHeaderLen
    aead.decrypt key nonce aad ciphertext

/-- Big-endian bytes of a `u32`. -/
def beBytes (n : Nat) : List UInt8 :=
  [UInt8.ofNat (n >>> 24), UInt8.ofNat (n >>> 16), UInt8.ofNat (n >>> 8), UInt8.ofNat n]

/-- The decoder info block of 48 bytes: frame length, depth, the usual parameters of the
entropy coder, channels and a run limit of 255, then the rate. -/
def decoderInfo (samplesPerFrame bitDepth channels sampleRate : Nat) : List UInt8 :=
  List.replicate 24 (0 : UInt8) ++ beBytes samplesPerFrame ++
    [0, UInt8.ofNat bitDepth, 40, 10, 14, UInt8.ofNat channels, 0, 255] ++
    List.replicate 8 (0 : UInt8) ++ beBytes sampleRate

end Shairplay.Raop
