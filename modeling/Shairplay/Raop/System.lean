import Shairplay.Lib.Machine
import Shairplay.Raop.Handlers.Pairing

/-!
# The server

Any number of connections over one shared state. A run is any sequence of accepted
connections, dispatched requests and written responses, so requests of different connections
interleave freely. The log records which handler each request reached.

Handlers look up or change the pairing store at most once, so a request is one step.
-/

namespace Shairplay.Raop

open Lib Proto Crypto

/-- The RTSP side of one connection, with what its next requests draw. -/
structure Session (env : Platform) (config : RaopConfig) where
  world : World
  upcoming : List Ambient := []

namespace Session

variable {env : Platform} {config : RaopConfig}

/-- The state for the next request. -/
def draw (s : Session env config) : World := { s.world with ambient := s.upcoming.headD {} }

instance : RtspService (Session env config) where
  dispatch s request :=
    (⟨(dispatch env config s.draw request).1, s.upcoming.tail⟩,
      (dispatch env config s.draw request).2)
  requestBodyPolicy s request := requestBodyPolicy config s.world.conn request
  ap2SharedSecret s := s.world.conn.ap2SharedSecret

end Session

/-- Connections by number, and what they share. -/
structure Server (env : Platform) (config : RaopConfig) where
  conns : List (RaopConnectionHandler env.crypto RaopConnection)
  shared : Shared

/-- What happens to a server. -/
inductive Event
  | accept (localAddr : List UInt8) (nonce : String)
  | request (id : Nat) (request : Request) (ambient : Ambient)
  | responded (id : Nat)

/-- A request that reached a handler. -/
structure Handled where
  id : Nat
  endpoint : Endpoint
  request : Request
  ambient : Ambient
  effects : List Effect

namespace Server

variable {env : Platform} {config : RaopConfig}

/-- A server before its first connection. -/
def initial (shared : Shared) : Server env config := ⟨[], shared⟩

/-- A connection with the shared state, ready for a request. -/
def load (s : Server env config) (h : RaopConnectionHandler env.crypto RaopConnection)
    (ambient : Ambient) : RaopConnectionHandler env.crypto (Session env config) where
  conn := ⟨{ conn := h.conn, shared := s.shared, ambient }, [ambient]⟩
  cipher := h.cipher
  pendingSecret := h.pendingSecret

/-- Put a connection and the shared state back. -/
def save (s : Server env config) (id : Nat)
    (h : RaopConnectionHandler env.crypto (Session env config)) : Server env config where
  conns := s.conns.set id ⟨h.conn.world.conn, h.cipher, h.pendingSecret⟩
  shared := h.conn.world.shared

/-- One event; those of unknown connections are ignored. -/
def step (s : Server env config) : Event → Server env config × List Handled
  | .accept localAddr nonce =>
    ({ s with conns := s.conns ++ [⟨{ localAddr, nonce }, none, none⟩] }, [])
  | .request id request ambient =>
    match s.conns[id]? with
    | none => (s, [])
    | some h =>
      let h' := ((s.load h ambient).connRequest request).1
      (s.save id h',
        match handledBy env config h.conn request with
        | none => []
        | some endpoint => [⟨id, endpoint, request, ambient, h'.conn.world.effects⟩])
  | .responded id =>
    match s.conns[id]? with
    | none => (s, [])
    | some h => (s.save id (s.load h {}).afterResponse, [])

/-- A run from a server without connections. -/
def run (env : Platform) (config : RaopConfig) (shared : Shared) (events : List Event) :
    Server env config × List Handled :=
  Machine.run step (initial shared) events

end Server

section Sessions

variable (env : Platform) (config : RaopConfig)

def setupMessages (id : Nat) (log : List Handled) : List SetupMessage :=
  log.filterMap fun entry =>
    if entry.id = id ∧ entry.endpoint = .pairSetup then
      entry.request.body.bind (setupMessage env config entry.ambient)
    else none

/-- The pair-setup session of a connection: its last successful M1 and what came after. -/
def setupSession (id : Nat) (log : List Handled) : Option SetupSession :=
  SetupSession.ofMessages (setupMessages env config id log)

/-- The pair-verify session of a connection: its last answered M1. -/
def verifySession (id : Nat) (log : List Handled) : Option VerifySession :=
  (log.filterMap fun entry =>
    if entry.id = id ∧ entry.endpoint = .pairVerify then
      entry.request.body.bind (verifyMessage env config entry.ambient)
    else none).getLast?

variable {env config} {id : Nat} {log : List Handled}

/-- A connection without entries has no sessions. -/
theorem setupSession_fresh (fresh : ∀ entry ∈ log, entry.id ≠ id) :
    setupSession env config id log = none := by
  have empty : setupMessages env config id log = [] := by
    refine List.filterMap_eq_nil_iff.mpr fun entry mem => ?_
    rw [if_neg (fun both => fresh entry mem both.1)]
  rw [setupSession, empty]
  rfl

theorem verifySession_fresh (fresh : ∀ entry ∈ log, entry.id ≠ id) :
    verifySession env config id log = none := by
  rw [verifySession, List.filterMap_eq_nil_iff.mpr, List.getLast?_nil]
  intro entry mem
  rw [if_neg (fun both => fresh entry mem both.1)]

/-- A new entry takes the session one message further, if it is one of the connection. -/
theorem setupSession_concat (entry : Handled) :
    setupSession env config id (log ++ [entry]) =
      if entry.id = id ∧ entry.endpoint = .pairSetup then
        nextSetup env config entry.ambient (setupSession env config id log) entry.request
      else setupSession env config id log := by
  rw [setupSession, setupMessages, List.filterMap_append, SetupSession.ofMessages,
    List.foldl_append]
  by_cases mine : entry.id = id ∧ entry.endpoint = .pairSetup
  · rw [if_pos mine, List.filterMap_cons, if_pos mine, nextSetup]
    cases entry.request.body.bind (setupMessage env config entry.ambient) <;> rfl
  · rw [if_neg mine, List.filterMap_cons, if_neg mine]
    rfl

theorem verifySession_concat (entry : Handled) :
    verifySession env config id (log ++ [entry]) =
      if entry.id = id ∧ entry.endpoint = .pairVerify then
        nextVerify env config entry.ambient (verifySession env config id log) entry.request
      else verifySession env config id log := by
  rw [verifySession, List.filterMap_append, List.getLast?_append]
  by_cases mine : entry.id = id ∧ entry.endpoint = .pairVerify
  · rw [if_pos mine, List.filterMap_cons, if_pos mine, nextVerify]
    cases entry.request.body.bind (verifyMessage env config entry.ambient) <;> rfl
  · rw [if_neg mine, List.filterMap_cons, if_neg mine]
    rfl

end Sessions

namespace Server

variable {env : Platform} {config : RaopConfig} {s : Server env config} {id : Nat}
variable {h : RaopConnectionHandler env.crypto RaopConnection}

/-- The state on which a request of a connection is dispatched. -/
def world (s : Server env config) (h : RaopConnectionHandler env.crypto RaopConnection)
    (ambient : Ambient) : World where
  conn := h.conn
  shared := s.shared
  ambient := ambient

/-- The secret that is queued after a request. -/
def queued (h : RaopConnectionHandler env.crypto RaopConnection) (conn : RaopConnection) :
    Option (List UInt8) :=
  match h.cipher, conn.ap2SharedSecret with
  | none, some secret => some secret
  | _, _ => h.pendingSecret

theorem connRequest_load (request : Request) (ambient : Ambient) :
    ((s.load h ambient).connRequest request).1 =
      ⟨⟨(dispatch env config (s.world h ambient) request).1, []⟩, h.cipher,
        queued h (dispatch env config (s.world h ambient) request).1.conn⟩ := by
  have drawn : (s.load h ambient).conn.draw = s.world h ambient := rfl
  have loaded : (s.load h ambient).cipher = h.cipher := rfl
  simp only [RaopConnectionHandler.connRequest, RtspService.dispatch, RtspService.ap2SharedSecret,
    drawn, loaded, queued]
  cases h.cipher with
  | some channel => rfl
  | none =>
    cases (dispatch env config (s.world h ambient) request).1.conn.ap2SharedSecret <;> rfl

/-- A request dispatches on the state of its connection and queues the secret it finds. -/
theorem step_request (known : s.conns[id]? = some h) (request : Request) (ambient : Ambient) :
    step s (.request id request ambient) =
      (⟨s.conns.set id ⟨(dispatch env config (s.world h ambient) request).1.conn, h.cipher,
          queued h (dispatch env config (s.world h ambient) request).1.conn⟩,
        (dispatch env config (s.world h ambient) request).1.shared⟩,
      match handledBy env config h.conn request with
      | none => []
      | some endpoint =>
        [⟨id, endpoint, request, ambient,
          (dispatch env config (s.world h ambient) request).1.effects⟩]) := by
  simp only [step, known, connRequest_load, save]

end Server

end Shairplay.Raop
