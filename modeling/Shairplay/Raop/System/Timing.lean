import Mathlib.Data.List.Perm.Subperm
import Shairplay.Raop.System.Tasks

/-!
# Timing responders

An RTP session over UDP gets a task that answers timing requests. The shutdown channel of the
session goes to its receiver only: nothing but a failing socket ends the loop of the responder.
So a responder is matched with a started session as long as that session stays as it is.
-/

namespace Shairplay.Raop

open Lib Proto Crypto

/-- `spawn_ntp_responder` is called: for a session over UDP, or for a timing socket alone. -/
def Effect.spawnsTiming : Effect → Bool
  | .rtpStarted _ useUdp _ _ => useUdp
  | .audioStarted (.legacyRealtime _ _) => true
  | .timingStarted _ => true
  | _ => false

/-- Apart from timing sockets without a session, responders come with receivers. -/
theorem filter_spawnsTiming {effects : List Effect}
    (paired : ∀ effect ∈ effects, effect.opensTiming = false) :
    (effects.filter fun effect => effect.starts.isSome).filter Effect.spawnsTiming =
      effects.filter Effect.spawnsTiming := by
  rw [List.filter_filter]
  apply List.filter_congr
  intro effect mem
  have paired := paired effect mem
  cases effect with
  | timingStarted port => cases paired
  | audioStarted stream => cases stream <;> rfl
  | rtpStarted task useUdp controlPort timingPort => cases useUdp <;> rfl
  | _ => rfl

/-- A step leaves the session and spawns no responder, or it lets go of the session, and a
responder comes with a session that is started. -/
theorem AudioStep.timing {ap2 : Bool} {h h' : AudioHandles} {starts stops : List Effect}
    (step : AudioStep ap2 h starts stops h') :
    (starts.filter Effect.spawnsTiming = [] ∧ h'.shutdown = h.shutdown) ∨
      ((∀ effect ∈ h.shutdowns, effect ∈ stops) ∧
        (starts.filter Effect.spawnsTiming = [] ∨
          ∃ start task, starts = [start] ∧ start.starts = some task ∧
            h'.shutdown = some task)) := by
  have registered {start : Effect} (registers : start.registers = true) :
      [start].filter Effect.spawnsTiming = [] := by
    cases start with
    | audioStarted stream =>
      cases stream with
      | legacyRealtime task port => cases registers
      | _ => rfl
    | _ => cases registers
  cases step with
  | idle => exact .inl ⟨rfl, rfl⟩
  | replaced _ => exact .inr ⟨fun _ mem => mem, .inl rfl⟩
  | failed _ => exact .inr ⟨fun _ mem => mem, .inl rfl⟩
  | launched shutdown starts _ =>
    exact .inr ⟨fun _ mem => mem, .inr ⟨_, _, rfl, starts, shutdown⟩⟩
  | realtime _ registers => exact .inl ⟨registered registers, rfl⟩
  | buffered _ _ registers => exact .inl ⟨registered registers, rfl⟩
  | teardown =>
    exact .inr ⟨fun _ mem => List.mem_append_left _ mem, .inl rfl⟩

namespace Ledger

theorem after_shutdown_self (l : Ledger) (id : Nat) (starts stops : List Effect)
    (h : AudioHandles) : (l.after id starts stops h).shutdown id = h.shutdown := if_pos rfl

theorem after_shutdown_of_ne (l : Ledger) {i id : Nat} (other : i ≠ id) (starts stops : List Effect)
    (h : AudioHandles) : (l.after id starts stops h).shutdown i = l.shutdown i := if_neg other

/-- Each running responder, named by its connection, has a started session of its own. -/
structure Attended (l : Ledger) (closed responders : List Nat) : Prop where
  single : responders.Nodup
  isOpen : ∀ id ∈ responders, id ∉ closed
  session : ∀ id ∈ responders, ∃ task, l.shutdown id = some task ∧ l.started id task

namespace Attended

variable {l : Ledger} {closed responders : List Nat} {id : Nat}

/-- A responder may end at any time. -/
theorem sublist (attended : l.Attended closed responders) {rest : List Nat}
    (part : rest.Sublist responders) : l.Attended closed rest where
  single := attended.single.sublist part
  isOpen := fun id mem => attended.isOpen id (part.subset mem)
  session := fun id mem => attended.session id (part.subset mem)

theorem close (attended : l.Attended closed responders) (unattended : id ∉ responders) :
    l.Attended (id :: closed) responders where
  single := attended.single
  isOpen := by
    intro other mem
    rw [List.mem_cons, not_or]
    exact ⟨fun same => unattended (same ▸ mem), attended.isOpen other mem⟩
  session := attended.session

variable {ap2 : Bool} {h h' : AudioHandles} {starts stops : List Effect}

/-- A session that is let go had no responder, if it was not let go from under one. -/
theorem not_mem_of_released (attended : l.Attended closed responders) (here : l.At id h)
    (released : ∀ effect ∈ h.shutdowns, effect ∈ stops)
    (spared : ∀ effect ∈ stops, effect.endsSession = true → id ∉ responders) : id ∉ responders := by
  intro mem
  obtain ⟨task, shutdown, -⟩ := attended.session id mem
  rw [← here.shutdown] at shutdown
  have told : Effect.rtpShutdown task ∈ h.shutdowns := by
    rw [AudioHandles.shutdowns, shutdown]
    exact List.mem_singleton_self _
  exact spared _ (released _ told) rfl mem

/-- A request of an open connection keeps the responders attended, if it ends no session from
under one. -/
theorem after (attended : l.Attended closed responders) (here : l.At id h)
    (step : AudioStep ap2 h starts stops h') (isOpen : id ∉ closed)
    (spared : ∀ effect ∈ stops, effect.endsSession = true → id ∉ responders) :
    (l.after id starts stops h').Attended closed
      (responders ++ (starts.filter Effect.spawnsTiming).map fun _ => id) := by
  -- sessions of other connections, and those that are kept, are as before
  have kept {other : Nat} (mem : other ∈ responders)
      (same : other = id → h'.shutdown = h.shutdown) :
      ∃ task, (l.after id starts stops h').shutdown other = some task ∧
        (l.after id starts stops h').started other task := by
    obtain ⟨task, shutdown, started⟩ := attended.session other mem
    refine ⟨task, ?_, .inl started⟩
    by_cases mine : other = id
    · subst mine
      rw [after_shutdown_self, same rfl, here.shutdown]
      exact shutdown
    · rw [after_shutdown_of_ne l mine]
      exact shutdown
  rcases step.timing with ⟨none, same⟩ | ⟨released, spawned⟩
  · rw [none, List.map_nil, List.append_nil]
    exact ⟨attended.single, attended.isOpen, fun other mem => kept mem fun _ => same⟩
  · have absent := attended.not_mem_of_released here released spared
    have others {other : Nat} (mem : other ∈ responders) :=
      kept mem fun mine => absurd (mine ▸ mem) absent
    rcases spawned with none | ⟨start, task, rfl, starts, shutdown⟩
    · rw [none, List.map_nil, List.append_nil]
      exact ⟨attended.single, attended.isOpen, fun _ mem => others mem⟩
    · cases spawns : start.spawnsTiming with
      | false =>
        rw [List.filter_singleton, spawns, cond_false, List.map_nil, List.append_nil]
        exact ⟨attended.single, attended.isOpen, fun _ mem => others mem⟩
      | true =>
        rw [List.filter_singleton, spawns, cond_true, List.map_singleton]
        have mine : ∃ task, (l.after id [start] stops h').shutdown id = some task ∧
            (l.after id [start] stops h').started id task := by
          refine ⟨task, ?_, .inr ⟨rfl, ?_⟩⟩
          · rw [after_shutdown_self]
            exact shutdown
          · rw [List.filterMap_cons_some starts]
            exact List.mem_cons_self
        constructor
        · exact (List.nodup_append_comm.mp (List.nodup_cons.mpr ⟨absent, attended.single⟩))
        · intro other mem
          rcases List.mem_append.mp mem with old | new
          · exact attended.isOpen other old
          · rw [List.mem_singleton.mp new]
            exact isOpen
        · intro other mem
          rcases List.mem_append.mp mem with old | new
          · exact others old
          · rw [List.mem_singleton.mp new]
            exact mine

end Attended

end Ledger

def Event.connection : Event → Option Nat
  | .accept _ _ => none
  | .request id _ _ => some id
  | .responded id => some id

/-- What happens to a server and its tasks. -/
inductive Occurrence
  | server (event : Event)
  /-- The connection ends, and is dropped together with its session. -/
  | close (id : Nat)
  /-- The socket of a responder fails. -/
  | timingFailed (index : Nat)

/-- The responders that a request spawns, by its connection. -/
def Handled.responders (entry : Handled) : List Nat :=
  (entry.effects.filter Effect.spawnsTiming).map fun _ => entry.id

/-- A server with the connections that ended and the responders that run. -/
structure Host (env : Platform) (config : RaopConfig) where
  server : Server env config
  closed : List Nat
  responders : List Nat

namespace Host

variable {env : Platform} {config : RaopConfig}

/-- A host before its first connection. -/
def initial (store : List (String × List UInt8)) : Host env config :=
  ⟨Server.initial (Server.fresh store), [], []⟩

/-- Connections that ended take no part any more. A responder outlives its session. -/
def step (s : Host env config) : Occurrence → Host env config × List Handled
  | .server event =>
    if event.connection.any (s.closed.contains ·) then (s, [])
    else
      let (server, handled) := s.server.step event
      ({ s with server, responders := s.responders ++ handled.flatMap Handled.responders }, handled)
  | .close id =>
    (if id < s.server.conns.length then { s with closed := id :: s.closed } else s, [])
  | .timingFailed index => ({ s with responders := s.responders.eraseIdx index }, [])

/-- A run from a host without connections. -/
def run (env : Platform) (config : RaopConfig) (store : List (String × List UInt8))
    (occurrences : List Occurrence) : Host env config × List Handled :=
  Machine.run step (initial store) occurrences

/-- The open connections with a session that was started and neither stopped, replaced nor
started again in vain. -/
def started (s : Host env config) (log : List Handled) : List Nat :=
  (List.range s.server.conns.length).filter fun id =>
    !s.closed.contains id && ((s.server.ledger log).shutdown id).any fun task =>
      decide (Started log id task)

/-- No session is let go, and no connection closes, from under a responder, and no timing socket is
opened without a session. All that counts is the state before and what arrives. -/
def Spares (s : Host env config) : Occurrence → Prop
  | .close id => id ∉ s.responders
  | .server (.request id request ambient) =>
    id ∉ s.closed → ∀ h ∈ s.server.conns[id]?,
      ((requestScope env config (s.server.world h ambient) request).releases →
        id ∉ s.responders) ∧
      ¬ (requestScope env config (s.server.world h ambient) request).opensTiming
  | _ => True

instance (s : Host env config) : (occurrence : Occurrence) → Decidable (s.Spares occurrence)
  | .close _ => inferInstanceAs (Decidable (¬ _))
  | .timingFailed _ | .server (.accept _ _) | .server (.responded _) =>
    inferInstanceAs (Decidable True)
  | .server (.request _ _ _) => inferInstanceAs (Decidable (_ → ∀ h ∈ _, _))

variable {s : Host env config} {log : List Handled}

/-- The state of a host, with its log. -/
structure Attended (s : Host env config) (log : List Handled) : Prop where
  follows : Follows s.server log
  responders : (s.server.ledger log).Attended s.closed s.responders

theorem attended_initial (store : List (String × List UInt8)) :
    (initial store : Host env config).Attended [] where
  follows := Server.follows_initial _
  responders := ⟨List.nodup_nil, by simp [initial], by simp [initial]⟩

theorem attended_request (attended : s.Attended log) {id : Nat} {request : Request}
    {ambient : Ambient} (isOpen : id ∉ s.closed)
    (spares : s.Spares (.server (.request id request ambient))) :
    ((s.server.step (.request id request ambient)).1.ledger
        (log ++ (s.server.step (.request id request ambient)).2)).Attended s.closed
      (s.responders ++
        (s.server.step (.request id request ambient)).2.flatMap Handled.responders) := by
  cases known : s.server.conns[id]? with
  | none =>
    simpa only [Server.step, known, List.append_nil, List.flatMap_nil] using attended.responders
  | some h =>
    obtain ⟨releases, paired⟩ := spares isOpen h known
    obtain ⟨starts, stops, emits, audio, ends⟩ :=
      Server.steers_dispatch (s := s.server) (attended.follows.agrees id h known) request ambient
    rw [Server.ledger_request known request ambient emits]
    obtain ⟨new, effects, started, -, opens⟩ := emits
    have effects : (dispatch env config (s.server.world h ambient) request).1.effects = new :=
      effects
    have spawned : (s.server.step (.request id request ambient)).2.flatMap Handled.responders =
        (starts.filter Effect.spawnsTiming).map fun _ => id := by
      have untimed : ∀ effect ∈ new, effect.opensTiming = false := fun effect mem =>
        Bool.eq_false_of_not_eq_true fun timing => paired (opens effect mem timing)
      rw [← started, filter_spawnsTiming untimed]
      rcases Server.entries_request (s := s.server) known request ambient with
        ⟨none, nothing⟩ | ⟨entry, one, rfl, same⟩
      · -- without an entry there are no effects either
        rw [none, ← effects, nothing]
        rfl
      · rw [one, List.flatMap_singleton, Handled.responders, same, effects]
    rw [spawned]
    exact attended.responders.after (Server.ledger_at known ambient) audio isOpen
      fun effect mem ending => releases (ends effect mem ending)

/-- What happens keeps the responders attended, if it spares their sessions. -/
theorem attended_step (attended : s.Attended log) (occurrence : Occurrence)
    (spares : s.Spares occurrence) :
    (s.step occurrence).1.Attended (log ++ (s.step occurrence).2) := by
  cases occurrence with
  | close id =>
    rw [step, List.append_nil]
    split
    · exact ⟨attended.follows, attended.responders.close spares⟩
    · exact attended
  | timingFailed index =>
    rw [step, List.append_nil]
    exact ⟨attended.follows, attended.responders.sublist (List.eraseIdx_sublist _ _)⟩
  | server event =>
    rw [step]
    split
    · rw [List.append_nil]
      exact attended
    · rename_i isOpen
      refine ⟨Server.follows_step attended.follows event, ?_⟩
      cases event with
      | accept localAddr nonce =>
        have same : (s.server.step (.accept localAddr nonce)).1.ledger log =
            s.server.ledger log := Server.ledger_accept localAddr nonce
        simpa [Server.step] using same ▸ attended.responders
      | responded i =>
        have same : (s.server.step (.responded i)).1.ledger log = s.server.ledger log :=
          Server.ledger_responded i
        have silent : (s.server.step (.responded i)).2 = [] := by
          cases known : s.server.conns[i]? <;> simp only [Server.step, known]
        simpa [silent, same] using attended.responders
      | request id request ambient =>
        apply attended_request attended _ spares
        simpa [Event.connection] using isOpen

/-- A started session is one of a known connection. -/
theorem Attended.subset_started (attended : s.Attended log) : s.responders ⊆ s.started log := by
  intro id mem
  obtain ⟨task, shutdown, started⟩ := attended.responders.session id mem
  have known : id < s.server.conns.length := by
    by_contra outside
    have none : s.server.conns[id]? = none := List.getElem?_eq_none (Nat.le_of_not_lt outside)
    simp only [Server.ledger, none, Option.bind_none] at shutdown
    cases shutdown
  have started : Started log id task := started
  simp [Host.started, known, attended.responders.isOpen id mem, shutdown, started]

/-- As long as sessions are not ended, replaced or started again, nor their connections closed,
from under a responder, there are no more responders than started sessions. -/
theorem responders_le_started (env : Platform) (config : RaopConfig)
    (store : List (String × List UInt8)) (occurrences : List Occurrence)
    (spared : Machine.Always step Spares (initial store : Host env config) occurrences) :
    (run env config store occurrences).1.responders.length ≤
      ((run env config store occurrences).1.started
        (run env config store occurrences).2).length := by
  have attended : (run env config store occurrences).1.Attended
      ([] ++ (run env config store occurrences).2) :=
    Machine.Always.run_history (P := Attended)
      (fun _ _ occurrence attended spares => attended_step attended occurrence spares)
      (attended_initial store) spared
  exact (attended.responders.single.subperm attended.subset_started).length_le

def udpSetup (id : Nat) : Event :=
  .request id
    { method := some "SETUP", url := some "rtsp://10.0.0.2/1"
      headers := [("transport", "RTP/AVP/UDP;unicast;control_port=6001;timing_port=6002")] }
    { ports := [7000, 7001, 7002] }

/-- A session over UDP stays while another one, over TCP, comes and goes. -/
theorem responders_le_started_udp :
    let occurrences := [.server Server.newConnection, .server (Server.announceRequest 0),
      .server (udpSetup 0), .server Server.newConnection, .server (Server.announceRequest 1),
      .server (Server.rtpSetup 1), .server (.request 1 Server.teardownRequest {}), .close 1]
    let host := run Server.audioPlatform plainConfig [] occurrences
    host.1.responders = [0] ∧ host.1.responders.length ≤ (host.1.started host.2).length := by
  refine ⟨by decide +kernel, ?_⟩
  apply responders_le_started
  decide +kernel

/-- TEARDOWN ends the session over UDP, and its responder goes on. -/
theorem responder_outlives_teardown :
    let host := run Server.audioPlatform plainConfig [] [.server Server.newConnection,
      .server (Server.announceRequest 0), .server (udpSetup 0),
      .server (.request 0 Server.teardownRequest {}), .close 0]
    host.1.responders = [0] ∧ host.1.started host.2 = [] ∧
      ¬ host.1.responders.length ≤ (host.1.started host.2).length := by
  decide +kernel

end Host

end Shairplay.Raop
