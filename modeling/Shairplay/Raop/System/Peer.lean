import Shairplay.Crypto.PairingHomekit.Controller
import Shairplay.Raop.System.Pairing

/-!
# A server and one of its peers

A peer sends its messages on one connection and reads the replies. Between two of them anything
else may happen: requests of other connections, pairings of others, and other requests on the
same connection. None of it touches what the peer and its connection have agreed on.
-/

namespace Shairplay.Raop

open Lib Proto Crypto

variable {env : Platform} {config : RaopConfig}

/-- A connection of the server. -/
abbrev Conn (env : Platform) : Type := RaopConnectionHandler env.crypto RaopConnection

/-- A peer: the body of its next request, and what it makes of the reply. -/
structure Peer (σ : Type) where
  message : σ → List UInt8
  receive : σ → Option (List UInt8) → σ

/-- The server and the state of the peer. -/
structure Duo (env : Platform) (config : RaopConfig) (σ : Type) where
  server : Server env config
  peer : σ

/-- What happens next: an event of the server, or a message of the peer and its reply. -/
inductive Turn
  | other (event : Event)
  /-- The request that carries the message; its body is the message. -/
  | exchange (request : Request) (ambient : Ambient)

def Server.reply (s : Server env config) (id : Nat) (request : Request) (ambient : Ambient) :
    Option (List UInt8) :=
  match s.conns[id]? with
  | none => none
  | some h =>
    match handledBy env config h.conn request with
    | none => none
    | some endpoint =>
      (endpoint.handler env config (s.world h ambient) request
        (acceptedResponse env config h.conn request)).body

namespace Duo

variable {σ : Type}

def carry (peer : Peer σ) (d : Duo env config σ) (request : Request) : Request :=
  { request with body := some (peer.message d.peer) }

def step (peer : Peer σ) (id : Nat) (d : Duo env config σ) : Turn → Duo env config σ × List Handled
  | .other event => ({ d with server := (d.server.step event).1 }, (d.server.step event).2)
  | .exchange request ambient =>
    let request := d.carry peer request
    ({ server := (d.server.step (.request id request ambient)).1
       peer := peer.receive d.peer (d.server.reply id request ambient) },
      (d.server.step (.request id request ambient)).2)

/-- The messages of the peer reach their handler, and nobody else sends pairing messages on the
connection of the peer. -/
def Orderly (peer : Peer σ) (id : Nat) (endpoint : Endpoint) (d : Duo env config σ) : Turn → Prop
  | .other (.request conn request _) => conn = id → ∀ h, d.server.conns[id]? = some h →
      ∀ reached, handledBy env config h.conn request = some reached → reached.pairs = false
  | .other _ => True
  | .exchange request _ => ∀ h, d.server.conns[id]? = some h →
      handledBy env config h.conn (d.carry peer request) = some endpoint

end Duo

def exchanges (turns : List Turn) : Nat :=
  turns.countP fun
    | .exchange _ _ => true
    | .other _ => false

theorem exchanges_cons (turn : Turn) (turns : List Turn) :
    exchanges (turn :: turns) = exchanges [turn] + exchanges turns := by
  rw [exchanges, exchanges, exchanges, ← List.countP_append]
  rfl

/-- Progress up to a limit, in two parts. -/
theorem min_add_min (first second done limit : Nat) :
    min (min (done + first) limit + second) limit = min (done + (first + second)) limit := by
  omega

/-- A connection without a shared secret. -/
structure Unpaired (h : Conn env) : Prop where
  secret : h.conn.ap2SharedSecret = none
  cipher : h.cipher = none
  pending : h.pendingSecret = none

/-- A connection that holds a secret: encryption with it is queued or active. -/
structure Joined (secret : List UInt8) (h : Conn env) : Prop where
  held : h.conn.ap2SharedSecret = some secret
  channel : (h.cipher = none ∧ h.pendingSecret = some secret) ∨
    ∃ channel, h.cipher = some channel ∧
      EncryptedChannel.control env.crypto.hkdf secret = .ok channel

section Queued

variable {h : Conn env} {conn : RaopConnection}
variable {secret : List UInt8}

/-- Without a secret nothing is queued. -/
theorem Unpaired.requeued (unpaired : Unpaired h)
    (none : conn.ap2SharedSecret = h.conn.ap2SharedSecret) :
    Unpaired (⟨conn, h.cipher, Server.queued h conn⟩ : Conn env) where
  secret := none.trans unpaired.secret
  cipher := unpaired.cipher
  pending := by
    simp only [Server.queued, none, unpaired.cipher, unpaired.secret, unpaired.pending]

/-- A new secret is queued. -/
theorem Unpaired.joined (unpaired : Unpaired h) (some : conn.ap2SharedSecret = some secret) :
    Joined secret (⟨conn, h.cipher, Server.queued h conn⟩ : Conn env) where
  held := some
  channel := .inl ⟨unpaired.cipher, by simp only [Server.queued, some, unpaired.cipher]⟩

/-- A known secret stays queued, or its channel active. -/
theorem Joined.requeued (joined : Joined secret h)
    (same : conn.ap2SharedSecret = h.conn.ap2SharedSecret) :
    Joined secret (⟨conn, h.cipher, Server.queued h conn⟩ : Conn env) where
  held := same.trans joined.held
  channel := by
    rcases joined.channel with ⟨closed, _⟩ | ⟨channel, active, made⟩
    · exact .inl ⟨closed, by simp only [Server.queued, same, closed, joined.held]⟩
    · exact .inr ⟨channel, active, made⟩

end Queued

namespace Server

variable {s : Server env config} {id : Nat} {h : Conn env}

/-- Requests that reach no pairing handler keep the credentials. -/
theorem dispatch_credentials {w : World} {request : Request}
    (other : ∀ reached, handledBy env config w.conn request = some reached →
      reached.pairs = false) :
    (dispatch env config w request).1.conn.credentials = w.conn.credentials := by
  rw [dispatch_world]
  cases reached : handledBy env config w.conn request with
  | none => rfl
  | some endpoint => exact (keeps_handler (other endpoint reached)).credentials

/-- What an event leaves of a connection that does not pair in it: its credentials, and a
channel that is as it was, newly queued or newly active. -/
structure Undisturbed (h h' : Conn env) : Prop where
  credentials : h'.conn.credentials = h.conn.credentials
  unpaired : Unpaired h → Unpaired h'
  joined : (∀ salt secret info, (env.crypto.hkdf salt secret info 32).isSome = true) →
    ∀ secret, Joined secret h → Joined secret h'

theorem Undisturbed.refl (h : Conn env) : Undisturbed h h :=
  ⟨rfl, id, fun _ _ => id⟩

/-- A request that reaches no pairing handler. -/
theorem undisturbed_request {request : Request} {ambient : Ambient}
    (other : ∀ reached, handledBy env config h.conn request = some reached →
      reached.pairs = false) :
    Undisturbed h ⟨(dispatch env config (s.world h ambient) request).1.conn, h.cipher,
      queued h (dispatch env config (s.world h ambient) request).1.conn⟩ := by
  have same : (dispatch env config (s.world h ambient) request).1.conn.credentials =
      h.conn.credentials := dispatch_credentials (w := s.world h ambient) other
  have secret : (dispatch env config (s.world h ambient) request).1.conn.ap2SharedSecret =
      h.conn.ap2SharedSecret := congrArg Credentials.ap2SharedSecret same
  exact ⟨same, fun unpaired => unpaired.requeued secret, fun _ _ joined => joined.requeued secret⟩

/-- The control channel can be made of every secret. -/
theorem control_ok (derives : ∀ salt secret info, (env.crypto.hkdf salt secret info 32).isSome)
    (secret : List UInt8) : ∃ channel, EncryptedChannel.control env.crypto.hkdf secret =
      .ok channel := by
  obtain ⟨write, writes⟩ := Option.isSome_iff_exists.mp
    (derives (Utf8.encode controlSalt) secret (Utf8.encode controlReadKeyInfo))
  obtain ⟨read, reads⟩ := Option.isSome_iff_exists.mp
    (derives (Utf8.encode controlSalt) secret (Utf8.encode controlWriteKeyInfo))
  refine ⟨⟨.new write, .new read⟩, ?_⟩
  rw [EncryptedChannel.control, EncryptedChannel.new, writes, reads]
  rfl

/-- The end of a response. -/
theorem undisturbed_responded (s : Server env config) (h : Conn env) :
    Undisturbed h ⟨(s.load h {}).afterResponse.conn.world.conn, (s.load h {}).afterResponse.cipher,
      (s.load h {}).afterResponse.pendingSecret⟩ := by
  have conn : (s.load h {}).afterResponse.conn.world.conn = h.conn := by
    rw [(afterResponse_load s h).1]
    rfl
  refine ⟨congrArg RaopConnection.credentials conn, ?_, ?_⟩
  · intro unpaired
    have nothing : (s.load h {}).afterResponse = s.load h {} := by
      simp only [RaopConnectionHandler.afterResponse, load, unpaired.cipher, unpaired.pending]
    rw [nothing]
    exact ⟨unpaired.secret, unpaired.cipher, unpaired.pending⟩
  · intro derives secret joined
    refine ⟨(congrArg RaopConnection.ap2SharedSecret conn).trans joined.held, .inr ?_⟩
    obtain ⟨channel, made⟩ := control_ok derives secret
    rcases joined.channel with ⟨closed, waiting⟩ | ⟨active, opened, same⟩
    · refine ⟨channel, ?_, made⟩
      simp only [RaopConnectionHandler.afterResponse, load, closed, waiting, made]
    · refine ⟨active, ?_, same⟩
      simp only [RaopConnectionHandler.afterResponse, load, opened]

/-- An event in which a connection does not pair. -/
theorem undisturbed_step (known : s.conns[id]? = some h) (event : Event)
    (orderly : ∀ request ambient, event = .request id request ambient →
      ∀ reached, handledBy env config h.conn request = some reached → reached.pairs = false) :
    ∃ h', (step s event).1.conns[id]? = some h' ∧ Undisturbed h h' := by
  have inside : id < s.conns.length := (List.getElem?_eq_some_iff.mp known).1
  cases event with
  | accept localAddr nonce =>
    exact ⟨h, by simpa [step, List.getElem?_append_left inside] using known, .refl h⟩
  | request conn request ambient =>
    by_cases mine : conn = id
    · subst mine
      rw [step_request known]
      exact ⟨_, List.getElem?_set_self inside, undisturbed_request (orderly request ambient rfl)⟩
    · refine ⟨h, ?_, .refl h⟩
      cases found : s.conns[conn]? with
      | none => simpa [step, found] using known
      | some other =>
        rw [step_request found]
        exact (List.getElem?_set_ne mine).trans known
  | responded conn =>
    by_cases mine : conn = id
    · subst mine
      refine ⟨_, ?_, undisturbed_responded s h⟩
      simp only [step, known, save]
      exact List.getElem?_set_self inside
    · refine ⟨h, ?_, .refl h⟩
      cases found : s.conns[conn]? with
      | none => simpa [step, found] using known
      | some other =>
        simp only [step, found, save]
        exact (List.getElem?_set_ne mine).trans known

/-- What an exchange amounts to: the outcome of its handler. -/
theorem step_exchange (known : s.conns[id]? = some h) {request : Request} {endpoint : Endpoint}
    (reached : handledBy env config h.conn request = some endpoint) (ambient : Ambient) :
    let outcome := endpoint.handler env config (s.world h ambient) request
      (acceptedResponse env config h.conn request)
    s.reply id request ambient = outcome.body ∧
      step s (.request id request ambient) =
        (⟨s.conns.set id ⟨outcome.world.conn, h.cipher, queued h outcome.world.conn⟩,
          outcome.world.shared⟩, [⟨id, endpoint, request, ambient, outcome.world.effects⟩]) := by
  have world : (dispatch env config (s.world h ambient) request).1 =
      (endpoint.handler env config (s.world h ambient) request
        (acceptedResponse env config h.conn request)).world := by
    rw [dispatch_world, show (s.world h ambient).conn = h.conn from rfl, reached]
  refine ⟨by simp only [reply, known, reached], ?_⟩
  rw [step_request known, reached, world]

end Server

def controllerChannel (hkdf : Hkdf) (secret : List UInt8) : Except CryptoError EncryptedChannel :=
  EncryptedChannel.new hkdf secret controlSalt controlWriteKeyInfo controlSalt controlReadKeyInfo

/-- The connection is encrypted with the channel of a secret, and each side of it reads with what
the other writes with. -/
def Server.Encrypts (s : Server env config) (id : Nat) (secret : List UInt8) : Prop :=
  ∃ h channel, s.conns[id]? = some h ∧ h.cipher = some channel ∧
    EncryptedChannel.control env.crypto.hkdf secret = .ok channel ∧
    controllerChannel env.crypto.hkdf secret = .ok ⟨channel.decryptCtx, channel.encryptCtx⟩

/-- Once a response is written, a secret that is held encrypts the connection. -/
theorem Joined.encrypts (works : env.crypto.Works) {s : Server env config} {id : Nat} {h : Conn env}
    {secret : List UInt8} (joined : Joined secret h) (known : s.conns[id]? = some h) :
    (Server.step s (.responded id)).1.Encrypts id secret := by
  have inside : id < s.conns.length := (List.getElem?_eq_some_iff.mp known).1
  obtain ⟨channel, made⟩ := Server.control_ok works.hkdf secret
  simp only [Server.step, known, Server.save]
  refine ⟨_, channel, List.getElem?_set_self inside, ?_, made, EncryptedChannel.new_swap made⟩
  rcases joined.channel with ⟨closed, waiting⟩ | ⟨active, opened, same⟩
  · simp only [RaopConnectionHandler.afterResponse, Server.load, closed, waiting, made]
  · rw [made] at same
    cases same
    simp only [RaopConnectionHandler.afterResponse, Server.load, opened]

/-- Progress over a run. What events without pairing keep of the peer, of its connection and of
the log, and each exchange as well, holds at the end; each exchange counts one stage until the
last. `Q` is what the exchanges need of the server. -/
theorem Duo.run_stages {σ : Type} {peer : Peer σ} {id : Nat} {endpoint : Endpoint}
    {P : List Handled → σ → Conn env → Prop} {Q : Server env config → Prop} {stage : σ → Nat}
    {limit : Nat}
    (undisturbed : ∀ log new state h h', P log state h → Server.Undisturbed h h' →
      P (log ++ new) state h')
    (exchange : ∀ (s : Server env config) log state h request ambient, Q s →
      s.conns[id]? = some h → P log state h → request.body = some (peer.message state) →
      handledBy env config h.conn request = some endpoint →
      ∃ state', peer.receive state (s.reply id request ambient) = state' ∧
        (∃ h', (s.step (.request id request ambient)).1.conns[id]? = some h' ∧
          P (log ++ (s.step (.request id request ambient)).2) state' h') ∧
        stage state' = min (stage state + 1) limit)
    {turns : List Turn} {d : Duo env config σ} {h : Conn env} (log : List Handled)
    (known : d.server.conns[id]? = some h) (phase : P log d.peer h) (within : stage d.peer ≤ limit)
    (always : Machine.Always (Duo.step peer id)
      (fun d turn => d.Orderly peer id endpoint turn ∧ Q d.server) d turns) :
    ∃ d' new, Machine.run (Duo.step peer id) d turns = (d', new) ∧
      (∃ h', d'.server.conns[id]? = some h' ∧ P (log ++ new) d'.peer h') ∧
      stage d'.peer = min (stage d.peer + exchanges turns) limit := by
  induction turns generalizing d log h with
  | nil =>
    refine ⟨d, [], rfl, ⟨h, known, ?_⟩, (Nat.min_eq_left within).symm⟩
    rwa [List.append_nil]
  | cons turn turns ih =>
    obtain ⟨⟨orderly, needs⟩, rest⟩ := always
    have first : (∃ h', (d.step peer id turn).1.server.conns[id]? = some h' ∧
          P (log ++ (d.step peer id turn).2) (d.step peer id turn).1.peer h') ∧
        stage (d.step peer id turn).1.peer = min (stage d.peer + exchanges [turn]) limit := by
      cases turn with
      | other event =>
        obtain ⟨h', found, still⟩ := Server.undisturbed_step known event (by
          rintro request ambient rfl
          exact orderly rfl h known)
        exact ⟨⟨h', found, undisturbed _ _ _ _ _ phase still⟩, (Nat.min_eq_left within).symm⟩
      | exchange request ambient =>
        obtain ⟨state, received, next, progress⟩ := exchange d.server log d.peer h
          (d.carry peer request) ambient needs known phase rfl (orderly h known)
        rw [Duo.step, received]
        exact ⟨next, progress⟩
    obtain ⟨⟨h₁, known₁, phase₁⟩, stage₁⟩ := first
    obtain ⟨d₂, new₂, ran, final, stage₂⟩ :=
      ih _ known₁ phase₁ (stage₁ ▸ Nat.min_le_right _ _) rest
    refine ⟨d₂, (d.step peer id turn).2 ++ new₂, ?_, ?_, ?_⟩
    · rw [Machine.run_cons, ran]
    · rwa [← List.append_assoc]
    · rw [stage₂, stage₁, min_add_min, exchanges_cons turn turns]

end Shairplay.Raop
