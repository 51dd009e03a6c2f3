import Shairplay.Lib.Segment

/-!
# TLV messages of HomeKit pairing

A message is a sequence of chunks, each with a tag, a length byte and up to 255 bytes. A
longer value is sent as several chunks with the same tag; a value whose length is a
positive multiple of 255 therefore takes in a following chunk with its tag.
-/

namespace Shairplay.Crypto

open Lib

/-- Tags of the pairing protocol that the server uses. -/
inductive TlvType
  | method
  | identifier
  | salt
  | publicKey
  | proof
  | encryptedData
  | state
  | error
  | signature
  | flags
  deriving DecidableEq

def TlvType.tag : TlvType → UInt8
  | .method => 0
  | .identifier => 1
  | .salt => 2
  | .publicKey => 3
  | .proof => 4
  | .encryptedData => 5
  | .state => 6
  | .error => 7
  | .signature => 10
  | .flags => 19

/-- An ordered collection of entries. -/
structure TlvValues where
  entries : List (UInt8 × List UInt8) := []
  deriving DecidableEq

/-- The only way in which a message can be malformed. -/
inductive TlvError
  | truncated
  deriving DecidableEq

def TlvError.toText : TlvError → String
  | .truncated => "TLV data truncated"

namespace TlvValues

/-- Append an entry. -/
def add (values : TlvValues) (tag : UInt8) (value : List UInt8) : TlvValues :=
  ⟨values.entries ++ [(tag, value)]⟩

def get (values : TlvValues) (tag : UInt8) : Option (List UInt8) := values.entries.lookup tag

def getType (values : TlvValues) (type : TlvType) : Option (List UInt8) := values.get type.tag

def encodeChunk (tag : UInt8) (chunk : List UInt8) : List UInt8 :=
  tag :: UInt8.ofNat chunk.length :: chunk

/-- The chunks of an entry; an empty value still takes one. -/
def entryChunks (entry : UInt8 × List UInt8) : List (UInt8 × List UInt8) :=
  if entry.2 = [] then [(entry.1, [])]
  else (Segment.chunks 255 entry.2).map fun chunk => (entry.1, chunk)

/-- The wire form of a message. -/
def encode (values : TlvValues) : List UInt8 :=
  (values.entries.flatMap entryChunks).flatMap fun (tag, chunk) => encodeChunk tag chunk

/-- Whether a chunk with this tag continues the given last entry. -/
def continues (tag : UInt8) (last : UInt8 × List UInt8) : Bool :=
  last.1 == tag && last.2.length % 255 == 0 && !last.2.isEmpty

/-- Take in a chunk: continue the last entry, or start a new one. -/
def addChunk (entries : List (UInt8 × List UInt8)) (chunk : UInt8 × List UInt8) :
    List (UInt8 × List UInt8) :=
  match entries.getLast? with
  | some last =>
    if continues chunk.1 last then entries.dropLast ++ [(last.1, last.2 ++ chunk.2)]
    else entries ++ [chunk]
  | none => entries ++ [chunk]

/-- Read chunks until the data is used up. Each takes at least two bytes, so the length of
the data bounds the number of rounds. -/
def decodeLoop : Nat → List (UInt8 × List UInt8) → List UInt8 → Except TlvError TlvValues
  | _, entries, [] => .ok ⟨entries⟩
  | _, _, [_] => .error .truncated
  | 0, _, _ => .error .truncated
  | fuel + 1, entries, tag :: len :: rest =>
    if rest.length < len.toNat then .error .truncated
    else decodeLoop fuel (addChunk entries (tag, rest.take len.toNat)) (rest.drop len.toNat)

/-- Parse a message. -/
def decode (data : List UInt8) : Except TlvError TlvValues := decodeLoop data.length [] data

end TlvValues

end Shairplay.Crypto
