import Shairplay.Raop.System.Audio
import Shairplay.Raop.System.Ledger

/-!
# Audio receivers over whole runs

The ledger of a run is kept by every request. TEARDOWN uses the handles of its own connection,
which leaves out a realtime receiver in the slot for the active audio; a new receiver takes over
the slot, which leaves out the receivers of RTP sessions.
-/

namespace Shairplay.Raop

open Lib Proto Crypto

def Started (log : List Handled) (id task : Nat) : Prop :=
  ∃ entry ∈ log, entry.id = id ∧ task ∈ entry.effects.filterMap Effect.starts

/-- A receiver has been told to stop. -/
def Told (log : List Handled) (task : Nat) : Prop :=
  ∃ entry ∈ log, task ∈ entry.effects.filterMap Effect.stops

/-- The receivers that a request stops because it registers another one. -/
def Handled.displaces (entry : Handled) : List Nat :=
  if entry.effects.filter (fun effect => effect.starts.isSome) = [] then []
  else entry.effects.filterMap Effect.displaces

instance (log : List Handled) (id task : Nat) : Decidable (Started log id task) :=
  inferInstanceAs (Decidable (∃ entry ∈ log, entry.id = id ∧ _))

instance (log : List Handled) (task : Nat) : Decidable (Told log task) :=
  inferInstanceAs (Decidable (∃ entry ∈ log, _))

namespace Server

variable {env : Platform} {config : RaopConfig} {s : Server env config} {log : List Handled}
variable {id : Nat} {h : RaopConnectionHandler env.crypto RaopConnection}

def ledger (s : Server env config) (log : List Handled) : Ledger where
  shutdown := fun i => s.conns[i]?.bind fun h => h.conn.raopRtp.bind RaopRtp.shutdownTx
  command := fun i => s.conns[i]?.bind fun h => h.conn.playoutCmd
  active := s.shared.activeAudio
  next := s.shared.nextTask
  started := Started log
  told := Told log
  displaced := log.flatMap Handled.displaces

theorem ledger_at (known : s.conns[id]? = some h) (ambient : Ambient) :
    (s.ledger log).At id (s.world h ambient).audio where
  shutdown := by simp [ledger, known, AudioHandles.shutdown, World.audio, world]
  command := by simp [ledger, known, World.audio, world]
  active := rfl
  next := rfl

theorem filterMap_displaces (effects : List Effect) :
    (effects.filter fun effect => effect.stops.isSome).filterMap Effect.displaces =
      effects.filterMap Effect.displaces := by
  induction effects with
  | nil => rfl
  | cons effect rest ih =>
    cases stops : effect.stops with
    | some task => simp [stops, List.filterMap_cons, ih]
    | none =>
      have calm : effect.displaces = none := by
        cases effect with
        | audioAborted task => cases stops
        | playoutCommand task command =>
          cases command with
          | stop => cases stops
          | _ => rfl
        | _ => rfl
      simp [stops, ih, calm]

theorem filterMap_starts (effects : List Effect) :
    (effects.filter fun effect => effect.starts.isSome).filterMap Effect.starts =
      effects.filterMap Effect.starts := by
  induction effects with
  | nil => rfl
  | cons effect rest ih => cases starts : effect.starts <;> simp [starts, ih]

theorem filterMap_stops (effects : List Effect) :
    (effects.filter fun effect => effect.stops.isSome).filterMap Effect.stops =
      effects.filterMap Effect.stops := by
  induction effects with
  | nil => rfl
  | cons effect rest ih => cases stops : effect.stops <;> simp [stops, ih]

/-- A request has one entry with its effects, unless it reaches no handler. -/
theorem entries_request (known : s.conns[id]? = some h) (request : Request) (ambient : Ambient) :
    ((step s (.request id request ambient)).2 = [] ∧
        (dispatch env config (s.world h ambient) request).1.effects = []) ∨
      ∃ entry : Handled, (step s (.request id request ambient)).2 = [entry] ∧ entry.id = id ∧
        entry.effects = (dispatch env config (s.world h ambient) request).1.effects := by
  rw [step_request known]
  cases reached : handledBy env config h.conn request with
  | none =>
    have same : (dispatch env config (s.world h ambient) request).1 = s.world h ambient := by
      rw [dispatch_world]
      have none : handledBy env config (s.world h ambient).conn request = none := reached
      rw [none]
    rw [same]
    exact .inl ⟨rfl, rfl⟩
  | some endpoint => exact .inr ⟨_, rfl, rfl, rfl⟩

theorem started_append (log new : List Handled) (i task : Nat) :
    Started (log ++ new) i task ↔ Started log i task ∨ Started new i task := by
  simp only [Started, List.mem_append, or_and_right, exists_or]

theorem told_append (log new : List Handled) (task : Nat) :
    Told (log ++ new) task ↔ Told log task ∨ Told new task := by
  simp only [Told, List.mem_append, or_and_right, exists_or]

/-- The ledger follows what a request emits and leaves. -/
theorem ledger_request (known : s.conns[id]? = some h) (request : Request) (ambient : Ambient)
    {opens : Prop} {starts stops : List Effect}
    (emits : Emits opens starts stops (s.world h ambient)
      (dispatch env config (s.world h ambient) request).1) :
    (step s (.request id request ambient)).1.ledger
        (log ++ (step s (.request id request ambient)).2) =
      (s.ledger log).after id starts stops
        (dispatch env config (s.world h ambient) request).1.audio := by
  obtain ⟨new, effects, started, stopped, -⟩ := emits
  have effects : (dispatch env config (s.world h ambient) request).1.effects = new := effects
  have entries := entries_request (s := s) known request ambient
  have inside : id < s.conns.length := (List.getElem?_eq_some_iff.mp known).1
  have conns : (step s (.request id request ambient)).1.conns = s.conns.set id _ :=
    congrArg (fun result => result.1.conns) (step_request known request ambient)
  have shared : (step s (.request id request ambient)).1.shared = _ :=
    congrArg (fun result => result.1.shared) (step_request known request ambient)
  rw [effects] at entries
  ext
  · rename_i i task
    by_cases mine : i = id
    · subst mine
      simp [ledger, Ledger.after, conns, inside, AudioHandles.shutdown, World.audio]
    · simp [ledger, Ledger.after, conns, mine, Ne.symm mine]
  · rename_i i task
    by_cases mine : i = id
    · subst mine
      simp [ledger, Ledger.after, conns, inside, World.audio]
    · simp [ledger, Ledger.after, conns, mine, Ne.symm mine]
  · simp only [ledger, Ledger.after, shared, World.audio]
  · simp only [ledger, Ledger.after, shared, World.audio]
  · rename_i i task
    simp only [ledger, Ledger.after, started_append]
    apply or_congr_right
    rcases entries with ⟨none, nothing⟩ | ⟨entry, one, id, same⟩
    · rw [← started, filterMap_starts, nothing, none]
      simp [Started]
    · rw [← started, filterMap_starts, one]
      simp [Started, id, same, eq_comm]
  · rename_i task
    simp only [ledger, Ledger.after, told_append]
    apply or_congr_right
    rw [← stopped, filterMap_stops]
    rcases entries with ⟨none, nothing⟩ | ⟨entry, one, id, same⟩
    · rw [nothing, none]
      simp [Told]
    · rw [one]
      simp [Told, same]
  · simp only [ledger, Ledger.after, List.flatMap_append]
    rw [← stopped, filterMap_displaces, ← started]
    rcases entries with ⟨none, nothing⟩ | ⟨entry, one, id, same⟩
    · rw [nothing, none]
      simp
    · rw [one]
      simp [Handled.displaces, same]

/-- Whatever a request does to the handles is one of the steps. -/
theorem steers_dispatch (agrees : Agrees env config id log h) (request : Request)
    (ambient : Ambient) :
    Steers (requestScope env config (s.world h ambient) request) (s.world h ambient)
      (dispatch env config (s.world h ambient) request).1 := by
  rw [dispatch_world]
  cases reached : handledBy env config (s.world h ambient).conn request with
  | none => exact .of_still (.refl _)
  | some endpoint =>
    apply steers_handler agrees.tracks agrees.tracksVerify reached
    intro isSetup
    subst isSetup
    exact (setup_of_handledBy reached).1

/-- A new connection has no handles. -/
theorem ledger_accept (localAddr : List UInt8) (nonce : String) :
    (step s (.accept localAddr nonce)).1.ledger log = s.ledger log := by
  have fresh {α : Type} (f : RaopConnectionHandler env.crypto RaopConnection → Option α)
      (empty : f ⟨{ localAddr, nonce }, none, none⟩ = none) (i : Nat) :
      ((s.conns ++ [⟨{ localAddr, nonce }, none, none⟩])[i]?).bind f = (s.conns[i]?).bind f := by
    by_cases old : i < s.conns.length
    · rw [List.getElem?_append_left old]
    · have outside : s.conns[i]? = none := List.getElem?_eq_none (Nat.le_of_not_lt old)
      rw [List.getElem?_append_right (Nat.le_of_not_lt old), outside]
      cases i - s.conns.length with
      | zero => exact empty
      | succ n => rfl
  apply Ledger.ext
  · exact funext (fresh _ rfl)
  · exact funext (fresh _ rfl)
  all_goals rfl

/-- Writing a response touches the transport of a connection only. -/
theorem ledger_responded (i : Nat) : (step s (.responded i)).1.ledger log = s.ledger log := by
  cases known : s.conns[i]? with
  | none => simp only [step, known]
  | some h =>
    have same : (s.load h {}).afterResponse.conn = (s.load h {}).conn := (afterResponse_load s h).1
    have conns : (step s (.responded i)).1.conns = s.conns.set i
        ⟨h.conn, (s.load h {}).afterResponse.cipher,
          (s.load h {}).afterResponse.pendingSecret⟩ := by
      simp only [step, known, save, same]
      rfl
    have shared : (step s (.responded i)).1.shared = s.shared := by
      simp only [step, known, save, same]
      rfl
    have inside : i < s.conns.length := (List.getElem?_eq_some_iff.mp known).1
    have kept {α : Type} (f : RaopConnection → Option α) (j : Nat) :
        ((step s (.responded i)).1.conns[j]?).bind (fun h => f h.conn) =
          (s.conns[j]?).bind fun h => f h.conn := by
      rw [conns, List.getElem?_set]
      by_cases mine : i = j
      · subst mine
        rw [if_pos rfl, if_pos inside, known]
        rfl
      · rw [if_neg mine]
    apply Ledger.ext
    · exact funext (kept fun conn => conn.raopRtp.bind RaopRtp.shutdownTx)
    · exact funext (kept RaopConnection.playoutCmd)
    · exact congrArg Shared.activeAudio shared
    · exact congrArg Shared.nextTask shared
    all_goals rfl

/-- Every event keeps the ledger in order. -/
theorem custody_step (follows : Follows s log)
    (custody : (s.ledger log).Custody config.features.ap2) (event : Event) :
    ((step s event).1.ledger (log ++ (step s event).2)).Custody config.features.ap2 := by
  cases event with
  | accept localAddr nonce =>
    rw [show (step s (.accept localAddr nonce)).2 = [] from rfl, List.append_nil, ledger_accept]
    exact custody
  | responded i =>
    have silent : (step s (.responded i)).2 = [] := by
      cases known : s.conns[i]? <;> simp only [step, known]
    rw [silent, List.append_nil, ledger_responded]
    exact custody
  | request id request ambient =>
    cases known : s.conns[id]? with
    | none => simpa [step, known] using custody
    | some h =>
      obtain ⟨starts, stops, emits, audio, -⟩ :=
        steers_dispatch (s := s) (follows.agrees id h known) request ambient
      rw [ledger_request known request ambient emits]
      exact custody.after (ledger_at known ambient) audio

/-- A server with a pairing store, before its first connection. -/
def fresh (store : List (String × List UInt8)) : Shared := { pairingStore := store }

theorem custody_initial (store : List (String × List UInt8)) :
    ((initial (fresh store) : Server env config).ledger []).Custody config.features.ap2 := by
  refine ⟨⟨?_, ?_, ?_, ?_, ?_, ?_⟩, ⟨?_, ?_, ?_, ?_, ?_⟩, ?_, ?_, ?_, ?_, ?_⟩ <;>
    simp [ledger, initial, fresh, Started, Told]

/-- In every run the ledger is in order. -/
theorem custody_run (env : Platform) (config : RaopConfig) (store : List (String × List UInt8))
    (events : List Event) :
    Follows (run env config (fresh store) events).1 (run env config (fresh store) events).2 ∧
      ((run env config (fresh store) events).1.ledger
        (run env config (fresh store) events).2).Custody config.features.ap2 := by
  have step (s : Server env config) (log : List Handled) (event : Event)
      (both : Follows s log ∧ (s.ledger log).Custody config.features.ap2) :
      Follows (step s event).1 (log ++ (step s event).2) ∧
        ((step s event).1.ledger (log ++ (step s event).2)).Custody config.features.ap2 :=
    ⟨follows_step both.1 event, custody_step both.1 both.2 event⟩
  exact Machine.run_history (P := fun s log => Follows s log ∧
    (s.ledger log).Custody config.features.ap2) step ⟨follows_initial _, custody_initial store⟩
    events

/-- A session of the first protocol version. -/
def announceRequest (id : Nat) : Event :=
  .request id
    { method := some "ANNOUNCE", url := some "rtsp://10.0.0.2/1"
      body := some (Utf8.encode "c=IN IP4 10.0.0.3\r\na=rtpmap:96 L16/44100/2\r\n") } {}

def rtpSetup (id : Nat) : Event :=
  .request id
    { method := some "SETUP", url := some "rtsp://10.0.0.2/1"
      headers := [("transport", "RTP/AVP/TCP;unicast")] } { ports := [7000] }

def teardownRequest : Request := { method := some "TEARDOWN", url := some "rtsp://10.0.0.2/1" }

def newConnection : Event := .accept [10, 0, 0, 2] "nonce"

theorem ledger_teardown (log : List Handled) (known : s.conns[id]? = some h) {request : Request}
    (reached : handledBy env config h.conn request = some .teardown) (ambient : Ambient) :
    (step s (.request id request ambient)).1.ledger
        (log ++ (step s (.request id request ambient)).2) =
      (s.ledger log).after id []
        ((s.world h ambient).audio.shutdowns ++
          (if config.features.ap2 then (s.world h ambient).audio.playoutCmd else none).toList.map
            (.playoutCommand · .stop))
        { (s.world h ambient).audio with raopRtp := none } := by
  have handled : (dispatch env config (s.world h ambient) request).1 =
      (handleTeardown config (s.world h ambient) request
        (acceptedResponse env config (s.world h ambient).conn request)).world := by
    rw [dispatch_world]
    have reached : handledBy env config (s.world h ambient).conn request = some .teardown := reached
    rw [reached]
    rfl
  obtain ⟨emits, audio⟩ := @handleTeardown_emits False config (s.world h ambient) request
    (acceptedResponse env config (s.world h ambient).conn request)
  rw [← handled] at emits audio
  rw [ledger_request known request ambient emits, audio]

/-- After a handled TEARDOWN every receiver that its connection has started is told to stop,
just when the slot for the active audio does not hold a realtime receiver of the connection. -/
theorem teardown_stops_iff (env : Platform) (config : RaopConfig)
    (store : List (String × List UInt8)) (events : List Event) (id : Nat) (request : Request)
    (ambient : Ambient) (h : RaopConnectionHandler env.crypto RaopConnection)
    (known : (run env config (fresh store) events).1.conns[id]? = some h)
    (reached : handledBy env config h.conn request = some .teardown) :
    let before := run env config (fresh store) events
    let log := before.2 ++ (step before.1 (.request id request ambient)).2
    (∀ task, Started log id task → Told log task) ↔
      ∀ task, before.1.shared.activeAudio = some (.abort task) → ¬Started before.2 id task := by
  intro before log
  have custody := (custody_run env config store events).2
  have after := ledger_teardown before.2 known reached ambient
  have started (task : Nat) : Started log id task ↔ Started before.2 id task := by
    have same := congrFun (congrFun (congrArg Ledger.started after) id) task
    simpa [Ledger.after, ledger] using same
  have complete := custody.teardown_iff (ledger_at known ambient)
  rw [← after] at complete
  simp only [started]
  exact complete

theorem teardown_stops_buffered :
    let before := run audioPlatform plainConfig (fresh []) [newConnection, streamSetup 0 103]
    let log := before.2 ++ (step before.1 (.request 0 teardownRequest {})).2
    Started log 0 0 ∧ ∀ task, Started log 0 task → Told log task := by
  have reaches : (run audioPlatform plainConfig (fresh [])
      [newConnection, streamSetup 0 103]).1.conns[0]?.map (fun h =>
        handledBy audioPlatform plainConfig h.conn teardownRequest) = some (some .teardown) := by
    decide +kernel
  obtain ⟨h, known, reached⟩ := Option.map_eq_some_iff.mp reaches
  refine ⟨by decide +kernel, ?_⟩
  apply (teardown_stops_iff audioPlatform plainConfig [] [newConnection, streamSetup 0 103] 0
    teardownRequest { ports := [] } h known reached).mpr
  intro task active
  have buffered : (run audioPlatform plainConfig (fresh [])
      [newConnection, streamSetup 0 103]).1.shared.activeAudio = some (.command 0) := by
    decide +kernel
  rw [buffered] at active
  cases active

theorem realtime_outlives_teardown :
    let before := run audioPlatform plainConfig (fresh []) [newConnection, streamSetup 0 96]
    let log := before.2 ++ (step before.1 (.request 0 teardownRequest {})).2
    before.1.conns[0]?.map (fun h =>
        handledBy audioPlatform plainConfig h.conn teardownRequest) = some (some .teardown) ∧
      Started log 0 0 ∧ ¬Told log 0 := by
  decide +kernel

/-- A start in the log is among those that the handler emitted. -/
theorem mem_starts (known : s.conns[id]? = some h) {request : Request} {ambient : Ambient}
    {opens : Prop} {starts stops : List Effect}
    (emits : Emits opens starts stops (s.world h ambient)
      (dispatch env config (s.world h ambient) request).1)
    {entry : Handled} (handled : entry ∈ (step s (.request id request ambient)).2) {start : Effect}
    (emitted : start ∈ entry.effects) (is : start.starts.isSome = true) : start ∈ starts := by
  obtain ⟨new, effects, started, -⟩ := emits
  rw [← started]
  apply List.mem_filter.mpr
  refine ⟨?_, is⟩
  rcases entries_request (s := s) known request ambient with ⟨none, -⟩ | ⟨one, single, -, same⟩
  · rw [none] at handled
    cases handled
  · rw [single] at handled
    cases List.mem_singleton.mp handled
    rw [same, effects] at emitted
    exact emitted

/-- After a request that starts a receiver all earlier ones have been told to stop, just when
nothing obstructs it. In any case no receiver is displaced twice. -/
theorem newest_only_iff (env : Platform) (config : RaopConfig)
    (store : List (String × List UInt8)) (events : List Event) (id : Nat) (request : Request)
    (ambient : Ambient) (entry : Handled) (start : Effect)
    (handled : entry ∈ (step (run env config (fresh store) events).1
      (.request id request ambient)).2)
    (emitted : start ∈ entry.effects) (starts : start.starts.isSome = true) :
    let before := run env config (fresh store) events
    let log := before.2 ++ (step before.1 (.request id request ambient)).2
    ((∀ i task, Started before.2 i task → Told log task) ↔
      (before.1.ledger before.2).Unobstructed id start) ∧
    (log.flatMap Handled.displaces).Nodup := by
  intro before log
  obtain ⟨follows, custody⟩ := custody_run env config store events
  cases known : before.1.conns[id]? with
  | none =>
    simp only [step, before, known] at handled
    cases handled
  | some h =>
    obtain ⟨begun, stops, emits, audio, -⟩ :=
      steers_dispatch (s := before.1) (follows.agrees id h known) request ambient
    have after : (step before.1 (.request id request ambient)).1.ledger log = _ :=
      ledger_request known request ambient emits
    refine ⟨?_, ?_⟩
    · have told (task : Nat) : Told log task = _ := congrFun (congrArg Ledger.told after) task
      simp only [told]
      apply custody.start_iff (ledger_at known ambient) audio
      exact mem_starts known emits handled emitted starts
    · have next := custody.after (ledger_at known ambient) audio
      rw [← after] at next
      exact next.displaced

theorem newest_only_buffered :
    let before := run audioPlatform plainConfig (fresh [])
      [newConnection, newConnection, streamSetup 0 103]
    let log := before.2 ++ (step before.1 (streamSetup 1 103)).2
    (Started before.2 0 0 ∧ ∀ i task, Started before.2 i task → Told log task) ∧
      (log.flatMap Handled.displaces).Nodup := by
  intro before log
  have begins : ∃ entry ∈ (step before.1 (streamSetup 1 103)).2, ∃ start ∈ entry.effects,
      start.starts.isSome = true ∧ start.registers = true := by
    decide +kernel
  obtain ⟨entry, handled, start, emitted, starts, registers⟩ := begins
  obtain ⟨newest, once⟩ := newest_only_iff audioPlatform plainConfig []
    [newConnection, newConnection, streamSetup 0 103] 1 _ _ entry start handled emitted starts
  refine ⟨⟨by decide +kernel, newest.mpr ?_⟩, once⟩
  rw [Ledger.Unobstructed, if_pos registers]
  intro i task _ shutdown started
  have first : ∀ entry ∈ before.2, entry.id = 0 := by decide +kernel
  have none : (before.1.ledger before.2).shutdown 0 = none := by decide +kernel
  obtain ⟨entry, mem, rfl, -⟩ := started
  rw [first entry mem] at shutdown
  cases none.symm.trans shutdown

/-- The receiver of an RTP session keeps running when another connection starts a buffered one. -/
theorem rtp_outlives_newest :
    let before := run audioPlatform plainConfig (fresh [])
      [newConnection, newConnection, announceRequest 0, rtpSetup 0]
    let log := before.2 ++ (step before.1 (streamSetup 1 103)).2
    Started before.2 0 0 ∧ Started log 1 1 ∧ ¬Told log 0 := by
  decide +kernel

end Server

end Shairplay.Raop
