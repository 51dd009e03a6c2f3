import Shairplay.Lib.Bytes
import Shairplay.Lib.Utf8

/-!
# Track metadata

A sender describes a track in a list of items, each with a tag of four bytes, a length and a
value. The list is the payload of one outer item. What is cut off is left out, and so is what
lies behind the declared payload.
-/

namespace Shairplay.Proto

open Lib Bytes

structure TrackMetadata where
  title : Option String := none
  artist : Option String := none
  album : Option String := none
  genre : Option String := none
  durationMs : Option (BitVec 32) := none
  trackNumber : Option (BitVec 16) := none
  discNumber : Option (BitVec 16) := none
  deriving DecidableEq

namespace TrackMetadata

/-- `usize::checked_add` -/
def checkedAdd (a b : Nat) : Option Nat :=
  if a + b < 18446744073709551616 then some (a + b) else none

/-- `&data[start..stop]` -/
def slice (data : List UInt8) (start stop : Nat) : List UInt8 := (data.take stop).drop start

/-- The text of a value. -/
def asStr (chunk : List UInt8) : Option String := Utf8.fromUtf8 chunk

/-- The big-endian number of a value that has exactly the given width. -/
def asNumber (width bits : Nat) (chunk : List UInt8) : Option (BitVec bits) :=
  if chunk.length = width then some (BitVec.ofNat bits (beNat chunk)) else none

def asU32 : List UInt8 → Option (BitVec 32) := asNumber 4 32

def asU16 : List UInt8 → Option (BitVec 16) := asNumber 2 16

/-- Take in one item. A malformed value leaves the field as it was. -/
def takeIn (m : TrackMetadata) (tag chunk : List UInt8) : TrackMetadata :=
  if tag = Utf8.encode "minm" then { m with title := (asStr chunk).or m.title }
  else if tag = Utf8.encode "asar" then { m with artist := (asStr chunk).or m.artist }
  else if tag = Utf8.encode "asal" then { m with album := (asStr chunk).or m.album }
  else if tag = Utf8.encode "asgn" then { m with genre := (asStr chunk).or m.genre }
  else if tag = Utf8.encode "astm" then { m with durationMs := (asU32 chunk).or m.durationMs }
  else if tag = Utf8.encode "astn" then { m with trackNumber := (asU16 chunk).or m.trackNumber }
  else if tag = Utf8.encode "asdk" then { m with discNumber := (asU16 chunk).or m.discNumber }
  else m

/-- Take in the items from a position on, up to the end of the payload. Each round takes a
header of 8 bytes at least, so that the length of the data bounds the rounds. -/
def itemLoop (data : List UInt8) (stop : Nat) :
    (rounds pos : Nat) → TrackMetadata → TrackMetadata
  | 0, _, m => m
  | rounds + 1, pos, m =>
    match checkedAdd pos 8 with
    | none => m
    | some headerEnd =>
      if stop < headerEnd then m
      else
        let tag := slice data pos (pos + 4)
        let len := beNat (slice data (pos + 4) (pos + 8))
        match checkedAdd (pos + 8) len with
        | none => m
        | some valueEnd =>
          if stop < valueEnd then m
          else itemLoop data stop rounds valueEnd (m.takeIn tag (slice data (pos + 8) valueEnd))

/-- The metadata of a message. Its payload ends where it is declared to, or with the data. -/
def fromDmap (data : List UInt8) : TrackMetadata :=
  if data.length < 8 ∨ slice data 0 4 ≠ Utf8.encode "mlit" then {}
  else
    match checkedAdd 8 (beNat (slice data 4 8)) with
    | none => {}
    | some declaredEnd => itemLoop data (min declaredEnd data.length) data.length 8 {}

end TrackMetadata

end Shairplay.Proto
