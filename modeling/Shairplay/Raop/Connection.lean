import Shairplay.Crypto.ChachaTransport
import Shairplay.Net.Server

/-!
# The request handler of a RAOP connection

The handler owns the RTSP state of the connection and the encrypted channel. A request
that completes a pairing leaves a shared secret behind; the channel made of it becomes
active after the response has been written in the old mode.
-/

namespace Shairplay.Raop

open Proto Crypto Net

/-- The RTSP side of a connection: its dispatcher, the body policy, and the secret that
a completed pairing leaves behind. -/
class RtspService (γ : Type) where
  dispatch : γ → Request → γ × HttpResponse
  requestBodyPolicy : γ → Request → Except ProtocolError Nat
  ap2SharedSecret : γ → Option (List UInt8)

/-- State of the handler; the algorithms it uses are part of its type. -/
structure RaopConnectionHandler (lib : CryptoLib) (γ : Type) where
  conn : γ
  cipher : Option EncryptedChannel := none
  pendingSecret : Option (List UInt8) := none

namespace RaopConnectionHandler

variable {lib : CryptoLib} {γ : Type} [RtspService γ]

/-- Dispatch a request. Encryption is queued, to start after the response. -/
def connRequest (h : RaopConnectionHandler lib γ) (request : Request) :
    RaopConnectionHandler lib γ × HttpResponse :=
  let (conn, response) := RtspService.dispatch h.conn request
  let h := { h with conn }
  match h.cipher, RtspService.ap2SharedSecret conn with
  | none, some secret => ({ h with pendingSecret := some secret }, response)
  | _, _ => (h, response)

/-- Activate queued encryption. A failed key derivation drops the queued secret. -/
def afterResponse (h : RaopConnectionHandler lib γ) : RaopConnectionHandler lib γ :=
  match h.cipher, h.pendingSecret with
  | none, some secret =>
    match EncryptedChannel.control lib.hkdf secret with
    | .ok channel => { h with cipher := some channel, pendingSecret := none }
    | .error _ => { h with pendingSecret := none }
  | _, _ => h

/-- Decrypt received bytes; without a channel they pass through. -/
def decryptIncoming (h : RaopConnectionHandler lib γ) (data : List UInt8) :
    RaopConnectionHandler lib γ × Option (List UInt8 × Nat) :=
  match h.cipher with
  | none => (h, some (data, data.length))
  | some channel =>
    let (decryptCtx, result) := channel.decryptCtx.decrypt lib.aead data
    ({ h with cipher := some { channel with decryptCtx } }, result.toOption)

/-- Encrypt a response. A failure yields no bytes, never the plaintext. -/
def encryptOutgoing (h : RaopConnectionHandler lib γ) (data : List UInt8) :
    RaopConnectionHandler lib γ × List UInt8 :=
  match h.cipher with
  | none => (h, data)
  | some channel =>
    let (encryptCtx, result) := channel.encryptCtx.encrypt lib.aead data
    ({ h with cipher := some { channel with encryptCtx } }, result.toOption.getD [])

instance : ConnectionHandler (RaopConnectionHandler lib γ) where
  connRequest := connRequest
  requestBodyPolicy h := RtspService.requestBodyPolicy h.conn
  decryptIncoming := decryptIncoming
  encryptOutgoing := encryptOutgoing
  isEncrypted h := h.cipher.isSome
  afterResponse := afterResponse

end RaopConnectionHandler

end Shairplay.Raop
