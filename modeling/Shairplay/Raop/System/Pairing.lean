import Shairplay.Raop.System

/-!
# Pairing over whole runs

In every run the records of each connection stand for the sessions that can be read off the
log. What a request did to the pairing store or to a shared secret therefore comes with the
messages of its own connection that allowed it.
-/

namespace Shairplay.Raop

open Lib Proto Crypto

variable {env : Platform} {config : RaopConfig}

/-- The provenance of a shared secret: a transient pair-setup on a server without a PIN, or a
pair-verify with a stored key. -/
def Provenance (env : Platform) (config : RaopConfig) (store : Shared) (setup : Option SetupSession)
    (verify : Option VerifySession) (endpoint : Option Endpoint) (data secret : List UInt8) :
    Prop :=
  (endpoint = some .pairSetup ∧ CompletesSetup env config setup data secret) ∨
    (endpoint = some .pairVerify ∧ CompletesVerify env store verify data secret)

/-- What a dispatched request may do to the credentials of its connection and to the store. -/
structure DispatchOutcome (env : Platform) (config : RaopConfig) (setup : Option SetupSession)
    (verify : Option VerifySession) (request : Request) (w w' : World) : Prop where
  tracks : Tracks env config w'.conn.srpServer
    (if handledBy env config w.conn request = some .pairSetup then
      nextSetup env config w.ambient setup request else setup)
  tracksVerify : TracksVerify env w'.conn.pairVerify
    (if handledBy env config w.conn request = some .pairVerify then
      nextVerify env config w.ambient verify request else verify)
  store : w'.shared.pairingStore = w.shared.pairingStore ∨
    handledBy env config w.conn request = some .pairSetup ∧
      ∃ data id publicKey, request.body = some data ∧ Stores env config setup data id publicKey ∧
        w'.shared = w.shared.put id publicKey
  secret : (w'.conn.ap2SharedSecret = w.conn.ap2SharedSecret ∧ w'.conn.isAp2 = w.conn.isAp2) ∨
    ∃ data secret, request.body = some data ∧
      Provenance env config w.shared setup verify (handledBy env config w.conn request) data
        secret ∧
      w'.conn.ap2SharedSecret = some secret ∧ w'.conn.isAp2 = true

section Dispatch

variable {setup : Option SetupSession} {verify : Option VerifySession} {request : Request}
variable {w w' : World}

/-- Requests that reach no pairing handler leave everything in place. -/
theorem DispatchOutcome.of_keeps (tracks : Tracks env config w.conn.srpServer setup)
    (tracksVerify : TracksVerify env w.conn.pairVerify verify)
    (noSetup : handledBy env config w.conn request ≠ some .pairSetup)
    (noVerify : handledBy env config w.conn request ≠ some .pairVerify) (kept : Keeps Free w w') :
    DispatchOutcome env config setup verify request w w' where
  tracks := by
    rw [if_neg noSetup, kept.srpServer]
    exact tracks
  tracksVerify := by
    rw [if_neg noVerify, kept.pairVerify]
    exact tracksVerify
  store := .inl kept.pairingStore
  secret := .inl ⟨kept.ap2SharedSecret, kept.isAp2⟩

theorem DispatchOutcome.of_setup (tracksVerify : TracksVerify env w.conn.pairVerify verify)
    (reached : handledBy env config w.conn request = some .pairSetup)
    (outcome : SetupOutcome env config setup request w w') :
    DispatchOutcome env config setup verify request w w' where
  tracks := by
    rw [if_pos reached]
    exact outcome.tracks
  tracksVerify := by
    rw [if_neg (by simp [reached]), outcome.pairVerify]
    exact tracksVerify
  store := outcome.store.imp_right fun stored => ⟨reached, stored⟩
  secret := by
    refine outcome.secret.imp_right ?_
    rintro ⟨data, secret, body, completes, rest⟩
    exact ⟨data, secret, body, .inl ⟨reached, completes⟩, rest⟩

theorem DispatchOutcome.of_verify (tracks : Tracks env config w.conn.srpServer setup)
    (reached : handledBy env config w.conn request = some .pairVerify)
    (outcome : VerifyOutcome env config verify request w w') :
    DispatchOutcome env config setup verify request w w' where
  tracks := by
    rw [if_neg (by simp [reached]), outcome.srpServer]
    exact tracks
  tracksVerify := by
    rw [if_pos reached]
    exact outcome.tracks
  store := .inl outcome.store
  secret := by
    refine outcome.secret.imp_right ?_
    rintro ⟨data, secret, body, completes, rest⟩
    exact ⟨data, secret, body, .inr ⟨reached, completes⟩, rest⟩

/-- Dispatch keeps records and sessions together. -/
theorem dispatch_outcome (tracks : Tracks env config w.conn.srpServer setup)
    (tracksVerify : TracksVerify env w.conn.pairVerify verify) :
    DispatchOutcome env config setup verify request w (dispatch env config w request).1 := by
  rw [dispatch_world]
  cases reached : handledBy env config w.conn request with
  | none => exact .of_keeps tracks tracksVerify (by simp [reached]) (by simp [reached]) (.refl w)
  | some endpoint =>
    by_cases isSetup : endpoint = .pairSetup
    · subst isSetup
      exact .of_setup tracksVerify reached (handlePairSetup_outcome tracks)
    · by_cases isVerify : endpoint = .pairVerify
      · subst isVerify
        exact .of_verify tracks reached (handlePairVerify_outcome tracksVerify)
      · have other : endpoint.pairs = false := by
          cases endpoint <;> first | rfl | contradiction
        exact .of_keeps tracks tracksVerify (by simp [reached, isSetup])
          (by simp [reached, isVerify]) (keeps_handler other)

end Dispatch

/-- Surroundings with simple algorithms: messages carry an empty tag, keys and digests are
zeros, and a signature is the key that made it, twice. -/
def simplePlatform : Platform where
  __ := inertPlatform
  crypto :=
    { aead :=
        ⟨fun _ _ _ message => some (message ++ List.replicate 16 0),
          fun _ _ _ message => some (message.take (message.length - 16))⟩
      hkdf := fun _ _ _ length => some (List.replicate length 0)
      sha512 := ⟨zeroHash, length_zeroHash⟩
      ed25519 :=
        ⟨fun seed => seed, fun seed _ => seed ++ seed, fun _ => true,
          fun key _ signature => signature == key ++ key⟩
      x25519 := ⟨fun secret => secret, fun secret _ => secret⟩ }

def pairingRequest (path : String) (body : List UInt8) : Request :=
  { method := some "POST", url := some path, body := some body }

def setupRequest (body : List UInt8) : Event := .request 0 (pairingRequest "/pair-setup" body) {}

def controllerKey : List UInt8 := List.replicate 32 7

/-- M3 with the public key one and the proof that belongs to it. -/
def setupM3 : Event := setupRequest ([6, 1, 3, 3, 1, 1, 4, 64] ++ List.replicate 64 0)

/-- M5 of the controller `c`. -/
def setupM5 : Event :=
  setupRequest ([6, 1, 5, 5, 119] ++ [1, 1, 99] ++ [10, 64] ++ controllerKey ++ controllerKey ++
    [3, 32] ++ controllerKey ++ List.replicate 16 0)

/-- M1 and M3 of a pair-setup that is not transient. -/
def setupExchange : List Event :=
  [.accept [10, 0, 0, 2] "nonce", setupRequest [6, 1, 1, 0, 1, 0], setupM3]

/-- A connection is what its part of the log makes of it. -/
structure Agrees (env : Platform) (config : RaopConfig) (id : Nat) (log : List Handled)
    (h : RaopConnectionHandler env.crypto RaopConnection) : Prop where
  tracks : Tracks env config h.conn.srpServer (setupSession env config id log)
  tracksVerify : TracksVerify env h.conn.pairVerify (verifySession env config id log)
  paired : h.conn.isAp2 = true → h.conn.ap2SharedSecret.isSome = true
  pending : ∀ secret, h.cipher = none → h.pendingSecret = some secret →
    h.conn.ap2SharedSecret = some secret
  cipher : h.cipher.isSome = true → h.conn.ap2SharedSecret.isSome = true

/-- Every connection agrees with the log, which mentions no others. -/
structure Follows (s : Server env config) (log : List Handled) : Prop where
  bounded : ∀ entry ∈ log, entry.id < s.conns.length
  agrees : ∀ id h, s.conns[id]? = some h → Agrees env config id log h

/-- Entries of other connections do not matter. -/
theorem Agrees.concat_other {id : Nat} {log : List Handled}
    {h : RaopConnectionHandler env.crypto RaopConnection} (agrees : Agrees env config id log h)
    {entry : Handled} (other : entry.id ≠ id) : Agrees env config id (log ++ [entry]) h where
  tracks := by
    rw [setupSession_concat, if_neg fun both => other both.1]
    exact agrees.tracks
  tracksVerify := by
    rw [verifySession_concat, if_neg fun both => other both.1]
    exact agrees.tracksVerify
  paired := agrees.paired
  pending := agrees.pending
  cipher := agrees.cipher

namespace Server

variable {s : Server env config} {log : List Handled} {id : Nat}
variable {h : RaopConnectionHandler env.crypto RaopConnection}

theorem follows_initial (shared : Shared) : Follows (initial shared : Server env config) [] where
  bounded := by simp
  agrees := by simp [initial]

theorem follows_accept (follows : Follows s log) (localAddr : List UInt8) (nonce : String) :
    Follows (step s (.accept localAddr nonce)).1 log where
  bounded := by
    intro entry mem
    simpa [step] using Nat.lt_succ_of_lt (follows.bounded entry mem)
  agrees := by
    intro id h known
    by_cases old : id < s.conns.length
    · apply follows.agrees id h
      simpa [step, List.getElem?_append_left old] using known
    · have fresh : ∀ entry ∈ log, entry.id ≠ id := fun entry mem =>
        Nat.ne_of_lt (Nat.lt_of_lt_of_le (follows.bounded entry mem) (Nat.le_of_not_lt old))
      simp only [step, List.getElem?_append, if_neg old, List.getElem?_singleton] at known
      split at known
      · cases known
        refine ⟨?_, ?_, by simp, by simp, by simp⟩
        · rw [setupSession_fresh fresh]
          exact .none
        · rw [verifySession_fresh fresh]
          exact .none
      · cases known

theorem agrees_request (agrees : Agrees env config id log h) (request : Request)
    (ambient : Ambient) (effects : List Effect) :
    Agrees env config id
      (log ++ match handledBy env config h.conn request with
        | none => []
        | some endpoint => [⟨id, endpoint, request, ambient, effects⟩])
      ⟨(dispatch env config (s.world h ambient) request).1.conn, h.cipher,
        queued h (dispatch env config (s.world h ambient) request).1.conn⟩ := by
  have outcome : DispatchOutcome env config _ _ request (s.world h ambient) _ :=
    dispatch_outcome agrees.tracks agrees.tracksVerify
  have conn : (s.world h ambient).conn = h.conn := rfl
  have secret_kept {secret : List UInt8} (held : h.conn.ap2SharedSecret = some secret) :
      (dispatch env config (s.world h ambient) request).1.conn.ap2SharedSecret.isSome = true := by
    rcases outcome.secret with ⟨same, _⟩ | ⟨_, _, _, _, some, _⟩
    · rw [same, conn, held]
      rfl
    · simp [some]
  refine ⟨?_, ?_, ?_, ?_, ?_⟩
  · have tracks := outcome.tracks
    rw [conn] at tracks
    cases reached : handledBy env config h.conn request with
    | none => simpa [reached] using tracks
    | some endpoint =>
      rw [setupSession_concat]
      simpa [reached, world] using tracks
  · have tracks := outcome.tracksVerify
    rw [conn] at tracks
    cases reached : handledBy env config h.conn request with
    | none => simpa [reached] using tracks
    | some endpoint =>
      rw [verifySession_concat]
      simpa [reached, world] using tracks
  · intro isAp2
    rcases outcome.secret with ⟨secret, flag⟩ | ⟨_, _, _, _, some, _⟩
    · rw [secret]
      exact agrees.paired (flag ▸ isAp2)
    · simp [some]
  · intro secret closed waiting
    dsimp only at closed waiting ⊢
    cases now : (dispatch env config (s.world h ambient) request).1.conn.ap2SharedSecret with
    | some current => simpa [queued, closed, now] using waiting
    | none =>
      -- nothing was queued now, so it was before; but a secret is never taken back
      have earlier : h.pendingSecret = some secret := by simpa [queued, closed, now] using waiting
      have held := secret_kept (agrees.pending secret closed earlier)
      rw [now] at held
      exact absurd held (by simp)
  · intro active
    obtain ⟨secret, held⟩ := Option.isSome_iff_exists.mp (agrees.cipher active)
    exact secret_kept held

/-- Activating encryption changes the channel only. -/
theorem afterResponse_load (s : Server env config)
    (h : RaopConnectionHandler env.crypto RaopConnection) :
    (s.load h {}).afterResponse.conn = (s.load h {}).conn ∧
      ((s.load h {}).afterResponse.cipher = h.cipher ∨
        ∃ secret channel, h.cipher = none ∧ h.pendingSecret = some secret ∧
          EncryptedChannel.control env.crypto.hkdf secret = .ok channel ∧
          (s.load h {}).afterResponse.cipher = some channel) ∧
      ((s.load h {}).afterResponse.pendingSecret = h.pendingSecret ∨
        (s.load h {}).afterResponse.pendingSecret = none) := by
  cases cipher : h.cipher with
  | some channel => simp [RaopConnectionHandler.afterResponse, load, cipher]
  | none =>
    cases pending : h.pendingSecret with
    | none => simp [RaopConnectionHandler.afterResponse, load, cipher, pending]
    | some secret =>
      cases made : EncryptedChannel.control env.crypto.hkdf secret with
      | error e => simp [RaopConnectionHandler.afterResponse, load, cipher, pending, made]
      | ok channel => simp [RaopConnectionHandler.afterResponse, load, cipher, pending, made]

theorem agrees_responded (agrees : Agrees env config id log h) :
    Agrees env config id log
      ⟨(s.load h {}).afterResponse.conn.world.conn, (s.load h {}).afterResponse.cipher,
        (s.load h {}).afterResponse.pendingSecret⟩ := by
  obtain ⟨conn, cipher, pending⟩ := afterResponse_load s h
  have same : (s.load h {}).afterResponse.conn.world.conn = h.conn := by rw [conn]; rfl
  rw [same]
  refine ⟨agrees.tracks, agrees.tracksVerify, agrees.paired, ?_, ?_⟩
  · intro secret closed waiting
    dsimp only at closed waiting
    rcases cipher with kept | ⟨_, channel, _, _, _, opened⟩
    · rcases pending with still | gone
      · exact agrees.pending secret (kept ▸ closed) (still ▸ waiting)
      · rw [gone] at waiting
        cases waiting
    · rw [opened] at closed
      cases closed
  · intro active
    dsimp only at active
    rcases cipher with kept | ⟨secret, _, closed, waiting, _, _⟩
    · exact agrees.cipher (kept ▸ active)
    · simp [agrees.pending secret closed waiting]

/-- The known connection after it was saved, and the others as they were. -/
theorem follows_set {conns : List (RaopConnectionHandler env.crypto RaopConnection)}
    {shared : Shared} {h' : RaopConnectionHandler env.crypto RaopConnection} {new : List Handled}
    (follows : Follows s log) (known : s.conns[id]? = some h) (saved : conns = s.conns.set id h')
    (mine : ∀ entry ∈ new, entry.id = id) (agrees : Agrees env config id (log ++ new) h')
    (others : ∀ other h, other ≠ id → Agrees env config other log h →
      Agrees env config other (log ++ new) h) :
    Follows (⟨conns, shared⟩ : Server env config) (log ++ new) where
  bounded := by
    have inside : id < s.conns.length := (List.getElem?_eq_some_iff.mp known).1
    intro entry mem
    rw [saved, List.length_set]
    rcases List.mem_append.mp mem with old | fresh
    · exact follows.bounded entry old
    · exact mine entry fresh ▸ inside
  agrees := by
    have inside : id < s.conns.length := (List.getElem?_eq_some_iff.mp known).1
    intro other h found
    simp only [saved, List.getElem?_set] at found
    by_cases same : id = other
    · subst same
      rw [if_pos rfl, if_pos inside] at found
      cases found
      exact agrees
    · rw [if_neg same] at found
      exact others other h (Ne.symm same) (follows.agrees other h found)

/-- Every event keeps the connections in agreement with the log. -/
theorem follows_step (follows : Follows s log) (event : Event) :
    Follows (step s event).1 (log ++ (step s event).2) := by
  cases event with
  | accept localAddr nonce =>
    rw [show (step s (.accept localAddr nonce)).2 = [] from rfl, List.append_nil]
    exact follows_accept follows localAddr nonce
  | request id request ambient =>
    cases known : s.conns[id]? with
    | none => simpa [step, known] using follows
    | some h =>
      rw [step_request known]
      refine follows_set follows known rfl ?_ (agrees_request (follows.agrees id h known) _ _ _) ?_
      · intro entry mem
        cases reached : handledBy env config h.conn request with
        | none => simp [reached] at mem
        | some endpoint =>
          simp only [reached, List.mem_singleton] at mem
          rw [mem]
      · intro other h' different agrees
        cases reached : handledBy env config h.conn request with
        | none => simpa using agrees
        | some endpoint => exact agrees.concat_other (Ne.symm different)
  | responded id =>
    cases known : s.conns[id]? with
    | none => simpa [step, known] using follows
    | some h =>
      simp only [step, known, save]
      refine follows_set follows known rfl (by simp) ?_ ?_
      · rw [List.append_nil]
        exact agrees_responded (follows.agrees id h known)
      · intro other h' _ agrees
        rw [List.append_nil]
        exact agrees

/-- In every run the connections agree with the log. -/
theorem follows_run (shared : Shared) (events : List Event) :
    Follows (run env config shared events).1 (run env config shared events).2 :=
  Machine.run_history (P := Follows) (fun _ _ event follows => follows_step follows event)
    (follows_initial shared) events

theorem step_pairingStore (follows : Follows s log) (event : Event) :
    (step s event).1.shared.pairingStore = s.shared.pairingStore ∨
      ∃ conn h request ambient data name key, event = .request conn request ambient ∧
        s.conns[conn]? = some h ∧ handledBy env config h.conn request = some .pairSetup ∧
        request.body = some data ∧
        Stores env config (setupSession env config conn log) data name key ∧
        (step s event).1.shared = s.shared.put name key := by
  cases event with
  | accept localAddr nonce => exact .inl rfl
  | responded conn =>
    cases known : s.conns[conn]? with
    | none => exact .inl (by simp [step, known])
    | some h =>
      refine .inl ?_
      have same := (afterResponse_load s h).1
      simp only [step, known, save, same]
      rfl
  | request conn request ambient =>
    cases known : s.conns[conn]? with
    | none => exact .inl (by simp [step, known])
    | some h =>
      have agrees := follows.agrees conn h known
      have outcome : DispatchOutcome env config _ _ request (s.world h ambient) _ :=
        dispatch_outcome agrees.tracks agrees.tracksVerify
      rw [step_request known]
      refine outcome.store.imp_right ?_
      rintro ⟨reached, data, name, key, body, stores, put⟩
      exact ⟨conn, h, request, ambient, data, name, key, rfl, known, reached, body, stores, put⟩

/-- A key enters the pairing store only by an M5 in a session of its connection that is not
transient and whose last compared proof was the right one for the PIN, and the M5 proves the
identity under the key of that session. -/
theorem pairingStore_integrity (env : Platform) (config : RaopConfig) (shared : Shared)
    (events : List Event) (event : Event) (id : String) (publicKey : List UInt8)
    (absent : (run env config shared events).1.shared.get id ≠ some publicKey)
    (gained : (step (run env config shared events).1 event).1.shared.get id = some publicKey) :
    ∃ conn h request ambient data, event = .request conn request ambient ∧
      (run env config shared events).1.conns[conn]? = some h ∧
      handledBy env config h.conn request = some .pairSetup ∧ request.body = some data ∧
      Stores env config (setupSession env config conn (run env config shared events).2) data id
        publicKey := by
  rcases step_pairingStore (follows_run shared events) event with
    same | ⟨conn, h, request, ambient, data, name, key, rfl, known, reached, body, stores, put⟩
  · exact absurd (by rw [← gained, Shared.get, Shared.get, same]) absent
  · rw [put, Shared.get_put] at gained
    by_cases named : id = name
    · rw [if_pos named] at gained
      cases gained
      exact ⟨conn, h, request, ambient, data, rfl, known, reached, body, named ▸ stores⟩
    · rw [if_neg named] at gained
      exact absurd gained absent

/-- The controller's key is not there before its M5, and is afterwards. -/
theorem pairingStore_integrity_exchange :
    (run simplePlatform plainConfig {} setupExchange).1.shared.get "c" ≠ some controllerKey ∧
      (step (run simplePlatform plainConfig {} setupExchange).1 setupM5).1.shared.get "c" =
        some controllerKey ∧
      ∃ conn h request ambient data, setupM5 = .request conn request ambient ∧
        (run simplePlatform plainConfig {} setupExchange).1.conns[conn]? = some h ∧
        handledBy simplePlatform plainConfig h.conn request = some .pairSetup ∧
        request.body = some data ∧
        Stores simplePlatform plainConfig
          (setupSession simplePlatform plainConfig conn
            (run simplePlatform plainConfig {} setupExchange).2) data "c" controllerKey := by
  have absent : (run simplePlatform plainConfig {} setupExchange).1.shared.get "c" ≠
      some controllerKey := by decide +kernel
  have gained : (step (run simplePlatform plainConfig {} setupExchange).1 setupM5).1.shared.get
      "c" = some controllerKey := by decide +kernel
  exact ⟨absent, gained, pairingStore_integrity simplePlatform plainConfig {} setupExchange setupM5
    "c" controllerKey absent gained⟩

/-- How a connection came to the secret and the channel it has after an event. -/
structure Acquired (s : Server env config) (log : List Handled) (event : Event) (id : Nat)
    (h' : RaopConnectionHandler env.crypto RaopConnection) : Prop where
  secret : ∀ secret, h'.conn.ap2SharedSecret = some secret →
    (∃ h, s.conns[id]? = some h ∧ h.conn.ap2SharedSecret = some secret) ∨
      ∃ h request ambient data, event = .request id request ambient ∧ s.conns[id]? = some h ∧
        request.body = some data ∧
        Provenance env config s.shared (setupSession env config id log)
          (verifySession env config id log) (handledBy env config h.conn request) data secret ∧
        (config.pin.isSome = true → handledBy env config h.conn request = some .pairVerify)
  channel : ∀ channel, h'.cipher = some channel →
    (∃ h, s.conns[id]? = some h ∧ h.cipher = some channel) ∨
      ∃ secret, h'.conn.ap2SharedSecret = some secret ∧
        EncryptedChannel.control env.crypto.hkdf secret = .ok channel

/-- A connection that an event leaves alone. -/
theorem acquired_unchanged {event : Event} (known : s.conns[id]? = some h) :
    Acquired s log event id h where
  secret := fun _ held => .inl ⟨h, known, held⟩
  channel := fun _ active => .inl ⟨h, known, active⟩

theorem acquired_request (follows : Follows s log) (known : s.conns[id]? = some h)
    (request : Request) (ambient : Ambient) :
    Acquired s log (.request id request ambient) id
      ⟨(dispatch env config (s.world h ambient) request).1.conn, h.cipher,
        queued h (dispatch env config (s.world h ambient) request).1.conn⟩ := by
  have agrees := follows.agrees id h known
  have outcome : DispatchOutcome env config _ _ request (s.world h ambient) _ :=
    dispatch_outcome agrees.tracks agrees.tracksVerify
  refine ⟨?_, fun channel active => .inl ⟨h, known, active⟩⟩
  intro secret held
  rcases outcome.secret with ⟨same, _⟩ | ⟨data, now, body, provenance, set, _⟩
  · exact .inl ⟨h, known, same.symm.trans held⟩
  · have secretEq : now = secret := Option.some.inj (set.symm.trans held)
    subst secretEq
    refine .inr ⟨h, request, ambient, data, rfl, known, body, provenance, ?_⟩
    intro pin
    rcases provenance with ⟨_, _, noPin, _⟩ | ⟨reached, _⟩
    · rw [noPin] at pin
      cases pin
    · exact reached

theorem acquired_responded (follows : Follows s log) (known : s.conns[id]? = some h)
    (event : Event) :
    Acquired s log event id
      ⟨(s.load h {}).afterResponse.conn.world.conn, (s.load h {}).afterResponse.cipher,
        (s.load h {}).afterResponse.pendingSecret⟩ := by
  obtain ⟨conn, cipher, _⟩ := afterResponse_load s h
  have same : (s.load h {}).afterResponse.conn.world.conn = h.conn := by rw [conn]; rfl
  rw [same]
  refine ⟨fun secret held => .inl ⟨h, known, held⟩, ?_⟩
  intro channel active
  rcases cipher with kept | ⟨secret, opened, closed, waiting, made, now⟩
  · exact .inl ⟨h, known, kept ▸ active⟩
  · have channelEq : opened = channel := Option.some.inj (now.symm.trans active)
    exact .inr ⟨secret, (follows.agrees id h known).pending secret closed waiting, channelEq ▸ made⟩

theorem acquired_step (follows : Follows s log) (event : Event)
    {h' : RaopConnectionHandler env.crypto RaopConnection}
    (found : (step s event).1.conns[id]? = some h') : Acquired s log event id h' := by
  cases event with
  | accept localAddr nonce =>
    by_cases old : id < s.conns.length
    · exact acquired_unchanged (by simpa [step, List.getElem?_append_left old] using found)
    · simp only [step, List.getElem?_append, if_neg old, List.getElem?_singleton] at found
      split at found
      · cases found
        exact ⟨by simp, by simp⟩
      · cases found
  | request conn request ambient =>
    cases known : s.conns[conn]? with
    | none => exact acquired_unchanged (by simpa [step, known] using found)
    | some h =>
      have inside : conn < s.conns.length := (List.getElem?_eq_some_iff.mp known).1
      rw [step_request known] at found
      simp only [List.getElem?_set] at found
      by_cases mine : conn = id
      · subst mine
        rw [if_pos rfl, if_pos inside] at found
        cases found
        exact acquired_request follows known request ambient
      · rw [if_neg mine] at found
        exact acquired_unchanged found
  | responded conn =>
    cases known : s.conns[conn]? with
    | none => exact acquired_unchanged (by simpa [step, known] using found)
    | some h =>
      have inside : conn < s.conns.length := (List.getElem?_eq_some_iff.mp known).1
      simp only [step, known, save, List.getElem?_set] at found
      by_cases mine : conn = id
      · subst mine
        rw [if_pos rfl, if_pos inside] at found
        cases found
        exact acquired_responded follows known _
      · rw [if_neg mine] at found
        exact acquired_unchanged found

/-- A connection comes to a shared secret only by a transient pair-setup without a PIN or by
pair-verify with a stored key, with a PIN only by the latter, and its control channel is made
of that secret. -/
theorem sharedSecret_provenance (env : Platform) (config : RaopConfig) (shared : Shared)
    (events : List Event) (event : Event) (id : Nat)
    (h : RaopConnectionHandler env.crypto RaopConnection)
    (found : (step (run env config shared events).1 event).1.conns[id]? = some h) :
    Acquired (run env config shared events).1 (run env config shared events).2 event id h :=
  acquired_step (follows_run shared events) event found

/-- M1 of a transient pair-setup. -/
def transientExchange : List Event :=
  [.accept [10, 0, 0, 2] "nonce", setupRequest [6, 1, 1, 0, 1, 0, 19, 1, 16]]

/-- A transient pair-setup leaves the session key behind. -/
theorem sharedSecret_provenance_transient :
    ∃ h, (step (run simplePlatform plainConfig {} transientExchange).1 setupM3).1.conns[0]? =
        some h ∧
      h.conn.ap2SharedSecret = some (List.replicate 64 0) ∧
      Acquired (run simplePlatform plainConfig {} transientExchange).1
        (run simplePlatform plainConfig {} transientExchange).2 setupM3 0 h := by
  have secret : ((step (run simplePlatform plainConfig {} transientExchange).1
      setupM3).1.conns[0]?).bind (fun h => h.conn.ap2SharedSecret) =
      some (List.replicate 64 0) := by decide +kernel
  obtain ⟨h, found, held⟩ := Option.bind_eq_some_iff.mp secret
  exact ⟨h, found, held, sharedSecret_provenance simplePlatform plainConfig {} transientExchange
    setupM3 0 h found⟩

end Server

end Shairplay.Raop
