import Shairplay.Lib.Str
import Shairplay.Lib.Utf8

/-!
# Session descriptions

The fields of an announced session that audio setup needs. The first non-empty value of a
field counts.
-/

namespace Shairplay.Proto

open Lib Str

/-- The fields of a session description. -/
structure Sdp where
  version : Option (List Char) := none
  connection : Option (List Char) := none
  rtpmap : Option (List Char) := none
  fmtp : Option (List Char) := none
  rsaaeskey : Option (List Char) := none
  fpaeskey : Option (List Char) := none
  aesiv : Option (List Char) := none
  minLatency : Option (List Char) := none
  deriving DecidableEq

namespace Sdp

/-- `str::lines`: cut at line feeds, drop one carriage return before each, and no empty line
after the last line feed. -/
def lines (data : List Char) : List (List Char) :=
  let pieces := data.splitOn '\n'
  let pieces := if pieces.getLast? = some [] then pieces.dropLast else pieces
  pieces.map fun line => if line.getLast? = some '\r' then line.dropLast else line

def first (field : Option (List Char)) (value : List Char) : Option (List Char) :=
  field.or (some value)

def attributeLine (sdp : Sdp) (value : List Char) : Sdp :=
  match splitOnce (· == ':') value with
  | none => sdp
  | some (key, val) =>
    let key := String.ofList (trim key)
    let val := trim val
    if val.isEmpty then sdp
    else if key = "rtpmap" then { sdp with rtpmap := first sdp.rtpmap val }
    else if key = "fmtp" then { sdp with fmtp := first sdp.fmtp val }
    else if key = "rsaaeskey" then { sdp with rsaaeskey := first sdp.rsaaeskey val }
    else if key = "fpaeskey" then { sdp with fpaeskey := first sdp.fpaeskey val }
    else if key = "aesiv" then { sdp with aesiv := first sdp.aesiv val }
    else if key = "min-latency" then { sdp with minLatency := first sdp.minLatency val }
    else sdp

/-- Take in one line. The second byte of a line is an equals sign only if its first
character is a single byte, so the test may be made on characters. -/
def line (sdp : Sdp) (text : List Char) : Sdp :=
  match trim (text.rdropWhile (· == '\r')) with
  | kind :: '=' :: value =>
    let value := trim value
    if kind.utf8Size ≠ 1 then sdp
    else if kind = 'v' then
      if value.isEmpty then sdp else { sdp with version := first sdp.version value }
    else if kind = 'c' then
      if value.isEmpty then sdp else { sdp with connection := first sdp.connection value }
    else if kind = 'a' then sdp.attributeLine value
    else sdp
  | _ => sdp

/-- `Sdp::parse`. -/
def parse (data : List Char) : Sdp := (lines data).foldl line {}

example :
    parse "\r\n  v=0\r\n  c=IN IP4 192.168.1.2\r\n  a=rtpmap: 96 AppleLossless \r\n".toList =
    { version := some "0".toList, connection := some "IN IP4 192.168.1.2".toList
      rtpmap := some "96 AppleLossless".toList } := by
  decide +kernel

end Sdp

end Shairplay.Proto
