import Shairplay.Net.Server.Loop
import Shairplay.Raop.System.Pairing

/-!
# The switch to encryption

The response that completes a pairing is written in plaintext, and the channel becomes active
right after it. What lies behind that request in the parser was received in plaintext, and the
loop feeds it to the parser again all the same. Where nothing lies behind it, every request of
the encrypted connection was parsed from decrypted bytes alone.
-/

namespace Shairplay.Raop

open Lib Proto Crypto Net ConnectionHandler Connection

variable {lib : CryptoLib} {γ : Type} [RtspService γ] {httparse : Httparse}
variable {s : Connection (RaopConnectionHandler lib γ)}

/-- Every byte came out of decryption. -/
def AllDecrypted (source : List (UInt8 × Origin)) : Prop := ∀ byte ∈ source, byte.2 = .decrypted

/-- Requests that were dispatched on an active channel were decrypted. -/
def DecryptedLog (log : List Net.Event) : Prop :=
  ∀ request source, .dispatched request true source ∈ log → AllDecrypted source

/-- An entry that a log of decrypted requests may hold. -/
def decryptedEvent : Net.Event → Bool
  | .dispatched _ true source => source.all fun byte => byte.2 == .decrypted
  | _ => true

theorem decryptedLog_iff (log : List Net.Event) :
    log.all decryptedEvent = true ↔ DecryptedLog log := by
  rw [List.all_eq_true]
  constructor
  · intro all request source mem
    simpa [decryptedEvent, AllDecrypted] using all _ mem
  · intro h event mem
    cases event with
    | dispatched request encrypted source =>
      cases encrypted with
      | false => rfl
      | true => simpa [decryptedEvent, AllDecrypted] using h request source mem
    | sent wire => rfl
    | badRequest wire => rfl

instance (log : List Net.Event) : Decidable (DecryptedLog log) :=
  decidable_of_iff _ (decryptedLog_iff log)

theorem DecryptedLog.append {log new : List Net.Event} (h : DecryptedLog log)
    (fine : DecryptedLog new) : DecryptedLog (log ++ new) := by
  intro request source mem
  exact (List.mem_append.mp mem).elim (h request source) (fine request source)

theorem decryptedLog_sent (wire : List UInt8) : DecryptedLog [.sent wire] := by
  intro request source mem
  cases List.mem_singleton.mp mem

theorem decryptedLog_badRequest (wire : List UInt8) : DecryptedLog [.badRequest wire] := by
  intro request source mem
  cases List.mem_singleton.mp mem

/-- The invariant of a connection. What the parser of an open connection with an active
channel holds was decrypted. A closed connection may hold anything: a response that activates
the channel may also end the connection. -/
structure OnlyDecrypted (s : Connection (RaopConnectionHandler lib γ)) : Prop where
  fed : s.closed = false → isEncrypted s.handler = true → AllDecrypted s.fed
  log : DecryptedLog s.log

theorem onlyDecrypted_of_closed (closed : s.closed = true) (log : DecryptedLog s.log) :
    OnlyDecrypted s := by
  refine ⟨?_, log⟩
  intro isOpen
  rw [closed] at isOpen
  cases isOpen

/-- Feeding bytes of the right origin keeps the invariant. -/
theorem OnlyDecrypted.addRequestData (h : OnlyDecrypted s) {data : List UInt8}
    {origins : List Origin}
    (fine : isEncrypted s.handler = true → ∀ origin ∈ origins, origin = .decrypted) :
    OnlyDecrypted (s.addRequestData httparse data origins) := by
  cases result : s.request.addDataWithBodyLimit httparse
      (ConnectionHandler.requestBodyPolicy s.handler) data with
  | mk request outcome =>
    cases outcome with
    | ok u =>
      rw [addRequestData_of_ok result]
      refine ⟨?_, h.log⟩
      intro isOpen active byte mem
      rcases List.mem_append.mp mem with old | new
      · exact h.fed isOpen active byte old
      · exact fine active byte.2 (List.of_mem_zip new).2
    | error e =>
      -- a bad request is answered and logged, but not dispatched
      rw [addRequestData_of_error result]
      exact onlyDecrypted_of_closed rfl (h.log.append (decryptedLog_badRequest _))

theorem OnlyDecrypted.ingestRead (h : OnlyDecrypted s) (isOpen : s.closed = false)
    (data : List UInt8) : OnlyDecrypted (s.ingestRead httparse data) := by
  unfold Connection.ingestRead
  split
  · rename_i active
    simp only [ingestEncryptedData]
    split
    · exact onlyDecrypted_of_closed rfl h.log
    · rename_i handler rawBuf plain taken
      have received : OnlyDecrypted { s with handler, rawBuf } :=
        ⟨fun _ _ => h.fed isOpen active, h.log⟩
      split
      · exact received
      · refine received.addRequestData ?_
        intro _ origin mem
        obtain ⟨_, _, same⟩ := List.mem_map.mp mem
        exact same.symm
  · rename_i inactive
    exact h.addRequestData fun active => absurd active inactive

/-- A request that activates the channel has nothing behind it in the parser. -/
def switchesClean (s : Connection (RaopConnectionHandler lib γ)) : Bool :=
  isEncrypted s.handler ||
    !isEncrypted (afterResponse (answer s.handler s.request.toRequest).1) ||
    s.request.leftover.isEmpty

theorem OnlyDecrypted.restart (log : DecryptedLog s.log) {leftover : List UInt8}
    {origins : List Origin}
    (fine : isEncrypted s.handler = true → leftover ≠ [] → ∀ origin ∈ origins,
      origin = .decrypted) : OnlyDecrypted (s.restart httparse leftover origins) := by
  have fresh : OnlyDecrypted { s with request := {}, fed := [] } := by
    refine ⟨?_, log⟩
    intro _ _ byte mem
    cases mem
  simp only [Connection.restart]
  split
  · exact fresh
  · rename_i more
    exact fresh.addRequestData fun active => fine active more

theorem OnlyDecrypted.dispatchOne (h : OnlyDecrypted s) (isOpen : s.closed = false)
    (clean : switchesClean s = true) : OnlyDecrypted (s.dispatchOne httparse) := by
  have dispatched : DecryptedLog
      [.dispatched s.request.toRequest (isEncrypted s.handler) s.splitFed.1] := by
    intro request source mem byte within
    injection List.mem_singleton.mp mem with _ active same
    subst same
    rw [splitFed, List.splitAt_eq] at within
    exact h.fed isOpen active.symm byte (List.mem_of_mem_take within)
  have log := h.log.append dispatched
  simp only [Connection.dispatchOne]
  split
  · exact onlyDecrypted_of_closed rfl log
  · split
    · exact onlyDecrypted_of_closed rfl (log.append (decryptedLog_sent _))
    · refine OnlyDecrypted.restart (log.append (decryptedLog_sent _)) ?_
      intro active more origin mem
      -- the channel was active before: the request had bytes behind it
      have before : isEncrypted s.handler = true := by
        have empty : s.request.leftover.isEmpty = false := by simpa using more
        simpa [switchesClean, empty, active] using clean
      obtain ⟨byte, behind, same⟩ := List.mem_map.mp mem
      rw [splitFed, List.splitAt_eq] at behind
      exact same ▸ h.fed isOpen before byte (List.mem_of_mem_drop behind)

/-- For every handler and all reads: if nothing lies behind the requests that activate the
channel, every request dispatched on the active channel was parsed from decrypted bytes. -/
theorem encrypted_dispatch_decrypted (httparse : Httparse) (handler : RaopConnectionHandler lib γ)
    (reads : List (List UInt8))
    (clean : ∀ s ∈ dispatchStates httparse (accept handler) reads,
      switchesClean s = true) :
    DecryptedLog (processConnection httparse handler reads).log := by
  have start : OnlyDecrypted (accept handler) := by
    refine ⟨?_, ?_⟩
    · intro _ _ byte mem
      cases mem
    · intro request source mem
      cases mem
  have finish : OnlyDecrypted (processConnection httparse handler reads) :=
    foldl_processRead_invariant (fun s h => onlyDecrypted_of_closed rfl h.log)
      (fun s data h isOpen => h.ingestRead isOpen data)
      (fun s h isOpen clean => h.dispatchOne isOpen clean) start reads clean
  exact finish.log

def verifyHeaders (version : String) (length : String) : List UInt8 :=
  Utf8.encode ("POST /pair-verify " ++ version ++ "\r\nContent-Length: " ++ length ++ "\r\n\r\n")

def optionsText (version : String) : List UInt8 :=
  Utf8.encode ("OPTIONS * " ++ version ++ "\r\n\r\n")

/-- `httparse` on the requests below. -/
def verifyRequests : Httparse := fun buffer =>
  if buffer = verifyHeaders "HTTP/1.0" "37" then
    .complete (some "POST") (some "/pair-verify") [("Content-Length", Utf8.encode "37")]
  else if buffer = verifyHeaders "HTTP/1.0" "90" then
    .complete (some "POST") (some "/pair-verify") [("Content-Length", Utf8.encode "90")]
  else if buffer = optionsText "HTTP/1.0" then .complete (some "OPTIONS") (some "*") []
  else .incomplete

def verifyM1 : List UInt8 :=
  verifyHeaders "RTSP/1.0" "37" ++ [6, 1, 1, 3, 32] ++ List.replicate 32 9

/-- M3 of the controller `c`; the response to it activates the channel. -/
def verifyM3 : List UInt8 :=
  verifyHeaders "RTSP/1.0" "90" ++ [6, 1, 3, 5, 85] ++ [1, 1, 99] ++ [10, 64] ++
    controllerKey ++ controllerKey ++ List.replicate 16 0

/-- A fresh connection to a receiver that has stored the controller `c`. -/
def verifyingHandler :
    RaopConnectionHandler simplePlatform.crypto (Session simplePlatform plainConfig) where
  conn :=
    { world :=
        { conn := { localAddr := [10, 0, 0, 2], nonce := "nonce" }
          shared := { pairingStore := [("c", controllerKey)] }
          ambient := {} } }

/-- The mode in which each request was dispatched. -/
def dispatchModes (log : List Net.Event) : List (Option String × Bool) :=
  log.filterMap fun
    | .dispatched request encrypted _ => some (request.method, encrypted)
    | _ => none

/-- A plaintext request that arrives together with M3 is dispatched on the active channel. -/
theorem pipelined_request_crosses_switch :
    dispatchModes (processConnection verifyRequests verifyingHandler
        [verifyM1, verifyM3 ++ optionsText "RTSP/1.0"]).log =
      [(some "POST", false), (some "POST", false), (some "OPTIONS", true)] ∧
    ¬ DecryptedLog (processConnection verifyRequests verifyingHandler
        [verifyM1, verifyM3 ++ optionsText "RTSP/1.0"]).log := by
  decide +kernel

/-- Sent in a frame after the response to M3, the same request is decrypted first. -/
theorem encrypted_dispatch_decrypted_frame :
    dispatchModes (processConnection verifyRequests verifyingHandler
        [verifyM1, verifyM3, [22, 0] ++ optionsText "RTSP/1.0" ++ List.replicate 16 0]).log =
      [(some "POST", false), (some "POST", false), (some "OPTIONS", true)] ∧
    DecryptedLog (processConnection verifyRequests verifyingHandler
        [verifyM1, verifyM3, [22, 0] ++ optionsText "RTSP/1.0" ++ List.replicate 16 0]).log :=
  ⟨by decide +kernel, encrypted_dispatch_decrypted verifyRequests verifyingHandler
    [verifyM1, verifyM3, [22, 0] ++ optionsText "RTSP/1.0" ++ List.replicate 16 0]
    (List.all_eq_true.mp (by decide +kernel))⟩

end Shairplay.Raop
