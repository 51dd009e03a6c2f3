import Shairplay.Proto.Http

/-!
# The connection loop of the RTSP server

One accepted connection owns a handler, the request that is being parsed, and the
encrypted bytes that do not yet form a complete frame. A read is fed to the parser,
directly or through the handler's decryption, and then every complete request is
dispatched and answered.

The model keeps a log of what the loop did, and as history the bytes fed to the pending
request with their origin; no transition reads either. Writing to the peer always
succeeds here, and body deadlines are left out: both could only end a connection
earlier.
-/

namespace Shairplay.Net

open Lib Proto

/-- Limit for encrypted bytes that wait for the rest of their frame. -/
def maxEncryptedBufferLen : Nat := 1024 * 1024

/-- The request handler of one connection, with the encryption hooks. -/
class ConnectionHandler (η : Type) where
  /-- Handle a request and produce its response. -/
  connRequest : η → Request → η × HttpResponse
  /-- Bound the body, or reject the request, once its headers are complete. -/
  requestBodyPolicy : η → Request → Except ProtocolError Nat := fun _ _ => .ok maxBodyBytes
  /-- Decrypt received bytes; the result is the plaintext and the bytes consumed. -/
  decryptIncoming : η → List UInt8 → η × Option (List UInt8 × Nat) :=
    fun h data => (h, some (data, data.length))
  /-- Encrypt a response; no bytes mean that encryption failed. -/
  encryptOutgoing : η → List UInt8 → η × List UInt8 := fun h data => (h, data)
  isEncrypted : η → Bool := fun _ => false
  /-- Called after a response is written; activates pending encryption. -/
  afterResponse : η → η := id

/-- How a byte reached the parser. -/
inductive Origin
  | plaintext
  | decrypted
  deriving DecidableEq

/-- What the loop did. -/
inductive Event
  /-- A request went to the handler. `encrypted` is the mode at that moment, `source` the
  bytes the request was parsed from. -/
  | dispatched (request : Request) (encrypted : Bool) (source : List (UInt8 × Origin))
  | sent (wire : List UInt8)
  /-- Status 400 was sent and the connection closed. -/
  | badRequest (wire : List UInt8)
  deriving DecidableEq

/-- State of one connection. -/
structure Connection (η : Type) where
  handler : η
  request : HttpRequest
  rawBuf : List UInt8
  closed : Bool
  fed : List (UInt8 × Origin)
  log : List Event

namespace Connection

variable {η : Type} [ConnectionHandler η] (httparse : Httparse)

open ConnectionHandler

/-- Let the handler answer a request: the handler, the bytes to write and whether the
connection is to be closed. The mode after the request decides about encryption. -/
def answer (handler : η) (request : Request) : η × List UInt8 × Bool :=
  let (handler, response) := connRequest handler request
  let (handler, wire) :=
    if isEncrypted handler then encryptOutgoing handler response.data
    else (handler, response.data)
  (handler, wire, response.disconnect)

def accept (handler : η) : Connection η :=
  { handler, request := {}, rawBuf := [], closed := false, fed := [], log := [] }

/-- Answer with status 400 and close. -/
def writeBadRequestAndClose (s : Connection η) : Connection η :=
  let response := ((HttpResponse.new "RTSP/1.0" 400 "Bad Request").addHeader
    "Connection" "close").finish none
  let (handler, wire) :=
    if isEncrypted s.handler then encryptOutgoing s.handler response.data
    else (s.handler, response.data)
  { s with handler, closed := true, log := s.log ++ [.badRequest wire] }

/-- Feed bytes to the pending request. -/
def addRequestData (s : Connection η) (data : List UInt8) (origins : List Origin) : Connection η :=
  let fed := s.fed ++ data.zip origins
  match s.request.addDataWithBodyLimit httparse (requestBodyPolicy s.handler) data with
  | (request, .ok _) => { s with request, fed }
  | (request, .error _) => writeBadRequestAndClose { s with request, fed }

/-- The history of the pending request, cut before its leftover. -/
def splitFed (s : Connection η) : List (UInt8 × Origin) × List (UInt8 × Origin) :=
  s.fed.splitAt (s.fed.length - s.request.leftover.length)

/-- Start over with an empty parser and feed it what lay behind the last request. -/
def restart (s : Connection η) (leftover : List UInt8) (origins : List Origin) : Connection η :=
  let s := { s with request := {}, fed := [] }
  if leftover = [] then s else s.addRequestData httparse leftover origins

/-- Dispatch one complete request, answer it, and go on with the leftover. -/
def dispatchOne (s : Connection η) : Connection η :=
  let encrypted := isEncrypted s.handler
  let (source, rest) := s.splitFed
  let (handler, wire, disconnect) := answer s.handler s.request.toRequest
  let log := s.log ++ [.dispatched s.request.toRequest encrypted source]
  if wire = [] then { s with handler, log, closed := true }
  else
    let handler := afterResponse handler
    let log := log ++ [.sent wire]
    if disconnect then { s with handler, log, closed := true }
    else
      { s with handler, log }.restart httparse s.request.leftover (rest.map Prod.snd)

/-- Dispatch while a complete request is pending. Each round uses up at least one byte
of the leftover, so its length bounds the number of rounds. -/
def sendLoop : Nat → Connection η → Connection η
  | 0, s => s
  | fuel + 1, s =>
    if !s.closed && s.request.complete then sendLoop fuel (s.dispatchOne httparse) else s

/-- Dispatch every complete request that is buffered. -/
def sendCompletedResponses (s : Connection η) : Connection η :=
  s.sendLoop httparse (s.request.buffer.length + 1)

/-- Take received bytes through the handler's decryption: the new handler, the bytes
that wait for the rest of their frame, and the plaintext; `none` ends the connection. -/
def takePlaintext (handler : η) (rawBuf data : List UInt8) : Option (η × List UInt8 × List UInt8) :=
  if maxEncryptedBufferLen - rawBuf.length < data.length then none
  else
    let rawBuf := rawBuf ++ data
    match decryptIncoming handler rawBuf with
    | (_, none) => none
    | (handler, some (plain, consumed)) =>
      if rawBuf.length < consumed then none
      else if consumed = 0 ∧ plain ≠ [] then none
      else some (handler, rawBuf.drop consumed, plain)

def ingestEncryptedData (s : Connection η) (data : List UInt8) : Connection η :=
  match takePlaintext s.handler s.rawBuf data with
  | none => { s with closed := true }
  | some (handler, rawBuf, plain) =>
    let s := { s with handler, rawBuf }
    if plain = [] then s else s.addRequestData httparse plain (plain.map fun _ => .decrypted)

/-- One read and the dispatching that follows it. An empty read is the end of the
stream. -/
def processRead (s : Connection η) (data : List UInt8) : Connection η :=
  if s.closed then s
  else if data = [] then { s with closed := true }
  else
    let s :=
      if isEncrypted s.handler then s.ingestEncryptedData httparse data
      else s.addRequestData httparse data (data.map fun _ => .plaintext)
    s.sendCompletedResponses httparse

def processConnection (handler : η) (reads : List (List UInt8)) : Connection η :=
  reads.foldl (processRead httparse) (accept handler)

end Connection

/-- The way of encrypted bytes from the socket to the parser, apart from the parser: the
bytes that wait, the plaintext passed on so far, and whether decryption has ended the
connection. -/
structure Intake (η : Type) where
  handler : η
  rawBuf : List UInt8 := []
  output : List UInt8 := []
  failed : Bool := false

namespace Intake

variable {η : Type} [ConnectionHandler η]

def read (s : Intake η) (data : List UInt8) : Intake η :=
  if s.failed then s
  else
    match Connection.takePlaintext s.handler s.rawBuf data with
    | none => { s with failed := true }
    | some (handler, rawBuf, plain) => { s with handler, rawBuf, output := s.output ++ plain }

end Intake

end Shairplay.Net
