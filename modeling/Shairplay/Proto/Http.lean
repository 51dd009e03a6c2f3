import Mathlib.Data.List.Basic
import Shairplay.Lib.Utf8

/-!
# RTSP and HTTP messages

The request parser is fed with whatever a read returned. Headers are scanned one
byte at a time and handed to `httparse` when an empty line has arrived; the body is
copied in bulk, and bytes behind it are kept for the next request.

`httparse` is a third-party parser and a parameter here: a function of the buffer.
The limit of 64 headers is its own, and so is the body offset that the source only
compares in a debug assertion.
-/

namespace Shairplay.Proto

open Lib

/-- Errors from protocol parsing. -/
inductive ProtocolError
  | invalidRtsp (message : String)
  | sdp (message : String)
  | plist (message : String)
  | incomplete
  deriving DecidableEq

def ProtocolError.toText : ProtocolError → String
  | .invalidRtsp message => "invalid RTSP request: " ++ message
  | .sdp message => "SDP parse error: " ++ message
  | .plist message => "plist parse error: " ++ message
  | .incomplete => "incomplete request"

/-- Maximum size accepted for the headers. -/
def maxHeaderBytes : Nat := 64 * 1024

/-- Maximum size accepted for a single request body. -/
def maxBodyBytes : Nat := 32 * 1024 * 1024

/-- What `httparse` reports about a buffer. -/
inductive HttparseResult
  | complete (method path : Option String) (headers : List (String × List UInt8))
  | incomplete
  | error (message : String)
  deriving DecidableEq

/-- The header parser. -/
abbrev Httparse := List UInt8 → HttparseResult

/-- What the accessors of a request show. -/
structure Request where
  method : Option String := none
  url : Option String := none
  headers : List (String × String) := []
  body : Option (List UInt8) := none
  deriving DecidableEq

/-- Header lookup, independent of ASCII case; stored names are lower case. -/
def Request.header (r : Request) (name : String) : Option String :=
  r.headers.lookup (Str.toAsciiLowercase name)

/-- The incremental request parser. -/
structure HttpRequest extends Request where
  buffer : List UInt8 := []
  requestLineStart : Option Nat := none
  contentLength : Option Nat := none
  headersComplete : Bool := false
  complete : Bool := false
  error : Option String := none
  deriving DecidableEq

/-- Carriage return and line feed. -/
def cr : UInt8 := 13
def lf : UInt8 := 10

/-- Insert a header and drop an older value of the same name. -/
def insertHeader (headers : List (String × String)) (name value : String) :
    List (String × String) :=
  (name, value) :: headers.filter (·.1 ≠ name)

/-- Take over the parsed headers; body metadata must not be repeated. -/
def insertHeaders : List (String × String) → List (String × List UInt8) →
    List (String × String) × Except ProtocolError Unit
  | headers, [] => (headers, .ok ())
  | headers, (rawName, value) :: rest =>
    let name := Str.toAsciiLowercase rawName
    if name = "transfer-encoding" then
      (headers, .error (.invalidRtsp "transfer framing is unsupported"))
    else if (name = "content-length" ∨ name = "content-type") ∧
        (headers.lookup name).isSome then
      (headers, .error (.invalidRtsp "duplicate body metadata"))
    else insertHeaders (insertHeader headers name (Utf8.fromUtf8Lossy value)) rest

/-- The declared body length: decimal digits only, within `usize` and the body limit. -/
def parseContentLength (headers : List (String × String)) : Except ProtocolError (Option Nat) :=
  match headers.lookup "content-length" with
  | none => .ok none
  | some value =>
    if value.toList = [] ∨ !value.toList.all Char.isDigit then
      .error (.invalidRtsp "invalid Content-Length")
    else
      -- the number of values of `usize`
      match Str.parseUnsigned 18446744073709551616 value.toList with
      | none => .error (.invalidRtsp "Content-Length overflow")
      | some length =>
        if maxBodyBytes < length then .error (.invalidRtsp "request body exceeds 32 MiB")
        else .ok (some length)

/-- Rewrite the version at the end of a request line from RTSP to HTTP. -/
def normalizeLine (line : List UInt8) : List UInt8 :=
  if (Utf8.encode " RTSP/1.0").isSuffixOf line then
    line.take (line.length - 8) ++ Utf8.encode "HTTP" ++ line.drop (line.length - 4)
  else line

namespace HttpRequest

/-- `httparse` accepts HTTP only, so the version of the first line is rewritten. Empty
lines before it are kept. -/
def normalizeRequestVersion (r : HttpRequest) : HttpRequest :=
  match r.requestLineStart with
  | none => r
  | some start =>
    let line := (r.buffer.drop start).takeWhile (· ≠ lf)
    let after := (r.buffer.drop start).drop line.length
    let (line, lineEnd) := if line.getLast? = some cr then (line.dropLast, [cr]) else (line, [])
    { r with buffer := r.buffer.take start ++ normalizeLine line ++ lineEnd ++ after }

/-- Hand the buffer to `httparse`; `true` once the headers are complete. -/
def tryParseHeaders (httparse : Httparse) (r : HttpRequest) :
    HttpRequest × Except ProtocolError Bool :=
  let r := r.normalizeRequestVersion
  match httparse r.buffer with
  | .incomplete => (r, .ok false)
  | .error message => (r, .error (.invalidRtsp message))
  | .complete method path parsed =>
    match insertHeaders r.headers parsed with
    | (headers, .error e) => ({ r with method, url := path, headers }, .error e)
    | (headers, .ok _) =>
      match parseContentLength headers with
      | .error e => ({ r with method, url := path, headers }, .error e)
      | .ok contentLength =>
        ({ r with method, url := path, headers, contentLength, headersComplete := true,
                  buffer := [] }, .ok true)

/-- An empty line has arrived behind a request line. -/
def atEmptyLine (r : HttpRequest) : Bool :=
  r.requestLineStart.isSome &&
    (([lf, cr, lf] : List UInt8).isSuffixOf r.buffer || ([lf, lf] : List UInt8).isSuffixOf r.buffer)

def pushByte (r : HttpRequest) (byte : UInt8) : HttpRequest :=
  { r with
    requestLineStart :=
      if r.requestLineStart.isNone ∧ byte ≠ cr ∧ byte ≠ lf then some r.buffer.length
      else r.requestLineStart
    buffer := r.buffer ++ [byte] }

section Ingest

variable (httparse : Httparse) (onHeaders : Request → Except ProtocolError Nat)

/-- One round of the header scan; `true` once the headers are complete and the policy
of the connection admits the declared body. -/
def headerByte (r : HttpRequest) (byte : UInt8) : HttpRequest × Except ProtocolError Bool :=
  if r.buffer.length = maxHeaderBytes then
    (r, .error (.invalidRtsp "request headers exceed 64 KiB"))
  else
    let r := r.pushByte byte
    if !r.atEmptyLine then (r, .ok false)
    else
      match r.tryParseHeaders httparse with
      | (r, .error e) => (r, .error e)
      | (r, .ok false) => (r, .ok false)
      | (r, .ok true) =>
        match onHeaders r.toRequest with
        | .error e => (r, .error e)
        | .ok limit =>
          if min limit maxBodyBytes < r.contentLength.getD 0 then
            (r, .error (.invalidRtsp "request body exceeds connection policy"))
          else (r, .ok true)

/-- Scan header bytes; the result is what lies behind the headers. -/
def ingestHeaders : HttpRequest → List UInt8 → HttpRequest × Except ProtocolError (List UInt8)
  | r, [] => (r, .ok [])
  | r, byte :: rest =>
    match r.headerByte httparse onHeaders byte with
    | (r, .error e) => (r, .error e)
    | (r, .ok true) => (r, .ok rest)
    | (r, .ok false) => ingestHeaders r rest

/-- Keep the bytes that belong to the body, and the ones behind it as leftover. -/
def bufferBodyAndLeftover (r : HttpRequest) (data : List UInt8) : HttpRequest :=
  let needed := r.contentLength.getD 0
  let accepted := min data.length (needed - r.buffer.length)
  let buffer := r.buffer ++ data.take accepted
  if buffer.length = needed then
    if needed ≠ 0 then
      { r with body := some buffer, complete := true, buffer := data.drop accepted }
    else { r with complete := true, buffer := buffer ++ data.drop accepted }
  else { r with buffer }

/-- Feed bytes to a request without a latched error. -/
def ingest (r : HttpRequest) (data : List UInt8) : HttpRequest × Except ProtocolError Unit :=
  if r.complete then ({ r with buffer := r.buffer ++ data }, .ok ())
  else if r.headersComplete then (r.bufferBodyAndLeftover data, .ok ())
  else
    match r.ingestHeaders httparse onHeaders data with
    | (r, .error e) => (r, .error e)
    | (r, .ok rest) =>
      (if r.headersComplete then r.bufferBodyAndLeftover rest else r, .ok ())

/-- Feed bytes; the first error is latched and repeated. The connection's policy is
consulted once, before body bytes are kept. -/
def addDataWithBodyLimit (r : HttpRequest) (data : List UInt8) :
    HttpRequest × Except ProtocolError Unit :=
  match r.error with
  | some message => (r, .error (.invalidRtsp message))
  | none =>
    match r.ingest httparse onHeaders data with
    | (r, .ok _) => (r, .ok ())
    | (r, .error e) =>
      let message := match e with
        | .invalidRtsp message => message
        | e => e.toText
      ({ r with error := some message }, .error e)

end Ingest

/-- Bytes behind a complete request. -/
def leftover (r : HttpRequest) : List UInt8 := if r.complete then r.buffer else []

end HttpRequest

/-- A response in wire form. Every response starts with a status line. -/
structure HttpResponse where
  data : List UInt8
  nonempty : data ≠ []
  complete : Bool
  disconnect : Bool
  code : UInt16
  deriving DecidableEq

namespace HttpResponse

/-- A response with its status line. -/
def new (protocol : String) (code : UInt16) (message : String) : HttpResponse where
  data := Utf8.encode protocol ++ Utf8.encode " " ++ Utf8.encode (toString code.toNat) ++
    Utf8.encode " " ++ Utf8.encode message ++ [cr, lf]
  nonempty := by simp
  complete := false
  disconnect := false
  code := code

def append (r : HttpResponse) (bytes : List UInt8) : HttpResponse :=
  { r with data := r.data ++ bytes, nonempty := by simp [r.nonempty] }

def addHeader (r : HttpResponse) (name value : String) : HttpResponse :=
  r.append (Utf8.encode name ++ Utf8.encode ": " ++ Utf8.encode value ++ [cr, lf])

/-- Finish the response; an empty body counts as none. -/
def finish (r : HttpResponse) (body : Option (List UInt8)) : HttpResponse :=
  match body with
  | some (byte :: bytes) =>
    { r.append (Utf8.encode "Content-Length: " ++
        Utf8.encode (toString (byte :: bytes).length) ++ [cr, lf, cr, lf] ++ byte :: bytes)
      with complete := true }
  | _ => { r.append [cr, lf] with complete := true }

/-- Ask for the connection to be closed after the response. -/
def setDisconnect (r : HttpResponse) (disconnect : Bool) : HttpResponse := { r with disconnect }

end HttpResponse

end Shairplay.Proto
