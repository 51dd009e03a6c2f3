import Shairplay.Raop.System.Pairing

/-!
# Audio needs a pairing

An audio receiver of the second protocol version is started by SETUP alone. SETUP is routed
to the second version by a completed pairing or by the look of its body; only the first of
these comes with a shared secret.
-/

namespace Shairplay.Raop

open Lib Proto Crypto

variable {env : Platform} {config : RaopConfig}

theorem routes_endpoint_ne_setup (features : Features) :
    ∀ route ∈ routes features, route.endpoint ≠ .setup := by
  have none (included : Bool) (table : List Route)
      (clear : ∀ route ∈ table, route.endpoint ≠ .setup) :
      ∀ route ∈ gated included table, route.endpoint ≠ .setup := by
    cases included with
    | false => simp [gated]
    | true => exact clear
  intro route mem
  simp only [routes, List.mem_append] at mem
  rcases mem with (((((((h | h) | h) | h) | h) | h) | h) | h) | h
  all_goals first
    | exact none _ _ (by simp) route h
    | exact none true _ (by simp) route h

/-- SETUP of the second version is part of builds with `ap2` and for the method SETUP, after a
pairing or with a property list. -/
theorem setup_of_handledBy {conn : RaopConnection} {request : Request}
    (reached : handledBy env config conn request = some .setup) :
    config.features.ap2 = true ∧ request.method = some "SETUP" ∧
      (conn.isAp2 = true ∨ isPlist request = true) := by
  unfold handledBy at reached
  split at reached
  · unfold resolveHandler at reached
    split at reached
    · cases reached
    · split at reached
      · rename_i route found
        exact absurd (Option.some.inj reached)
          (routes_endpoint_ne_setup _ route (List.mem_of_find?_eq_some found))
      · split at reached
        · rename_i method
          have named : request.method = some "SETUP" := by
            cases named : request.method with
            | none => simp [named] at method
            | some name => simpa [named] using method
          unfold resolveSetup at reached
          split at reached
          · rename_i second
            simp only [Bool.and_eq_true, Bool.or_eq_true] at second
            exact ⟨second.1, named, second.2⟩
          · cases reached
        · split at reached
          · unfold resolveRecord at reached
            split at reached <;> cases reached
          · split at reached
            · cases reached
            · split at reached <;> cases reached
  · cases reached

/-- New effects of a request start no audio receiver. -/
def QuietRequest (w w' : World) : Prop :=
  ∃ new, w'.effects = w.effects ++ new ∧ ∀ effect ∈ new, Quiet effect

theorem QuietRequest.of_inert {w w' : World}
    (effects : ∃ new, w'.effects = w.effects ++ new ∧ ∀ effect ∈ new, Inert effect) :
    QuietRequest w w' := by
  obtain ⟨new, eq, inert⟩ := effects
  exact ⟨new, eq, fun effect mem => (inert effect mem).quiet⟩

/-- Only SETUP for the types 96 and 103 starts an audio receiver. -/
theorem dispatch_quiet {setup : Option SetupSession} {verify : Option VerifySession} {w : World}
    {request : Request} (tracks : Tracks env config w.conn.srpServer setup)
    (tracksVerify : TracksVerify env w.conn.pairVerify verify)
    (other : handledBy env config w.conn request = some .setup →
      ∀ type, requestedStream env request = some type → type ≠ 96 ∧ type ≠ 103) :
    QuietRequest w (dispatch env config w request).1 := by
  rw [dispatch_world]
  cases reached : handledBy env config w.conn request with
  | none => exact ⟨[], by simp, by simp⟩
  | some endpoint =>
    by_cases isSetup : endpoint = .setup
    · subst isSetup
      exact (keeps_handleSetup_quiet (other reached)).effects
    · by_cases pairing : endpoint = .pairSetup
      · subst pairing
        exact .of_inert (handlePairSetup_outcome tracks).effects
      · by_cases verifying : endpoint = .pairVerify
        · subst verifying
          exact .of_inert (handlePairVerify_outcome tracksVerify).effects
        · have rest : endpoint.pairs = false := by
            cases endpoint <;> first | rfl | contradiction
          exact (keeps_handler_quiet rest isSetup).effects

namespace Server

/-- A SETUP for an audio stream that is recognised by its body alone, on a connection without
a completed pairing. -/
def unpairedAudio (s : Server env config) : Event → Bool
  | .request id request _ =>
    match s.conns[id]? with
    | some h =>
      !h.conn.isAp2 && request.method == some "SETUP" && isPlist request &&
        (requestedStream env request == some 96 || requestedStream env request == some 103)
    | none => false
  | _ => false

/-- Every audio receiver that the event starts is started on a connection with a shared
secret. -/
def AudioPaired (s : Server env config) (event : Event) : Prop :=
  ∀ entry ∈ (step s event).2, ∀ effect ∈ entry.effects, effect.startsAudio = true →
    ∃ h, s.conns[entry.id]? = some h ∧ h.conn.ap2SharedSecret.isSome = true

/-- Whatever starts audio without a shared secret is an unpaired SETUP. -/
theorem audioPaired_step {s : Server env config} {log : List Handled} (follows : Follows s log)
    {event : Event} (mediated : unpairedAudio s event = false) : AudioPaired s event := by
  intro entry mem effect started audio
  cases event with
  | accept localAddr nonce => cases mem
  | responded id =>
    cases known : s.conns[id]? <;> simp [step, known] at mem
  | request id request ambient =>
    cases known : s.conns[id]? with
    | none => simp [step, known] at mem
    | some h =>
      have agrees := follows.agrees id h known
      rw [step_request known] at mem
      cases reached : handledBy env config h.conn request with
      | none => simp [reached] at mem
      | some endpoint =>
        simp only [reached, List.mem_singleton] at mem
        subst mem
        refine ⟨h, known, ?_⟩
        by_contra unpaired
        have noPairing : h.conn.isAp2 = false := by
          rw [Bool.eq_false_iff]
          exact fun paired => unpaired (agrees.paired paired)
        have quiet : QuietRequest (s.world h ambient)
            (dispatch env config (s.world h ambient) request).1 := by
          refine dispatch_quiet agrees.tracks agrees.tracksVerify ?_
          intro isSetup type requested
          obtain ⟨-, method, paired | plist⟩ := setup_of_handledBy isSetup
          · exact absurd (agrees.paired paired) unpaired
          · have others : requestedStream env request ≠ some 96 ∧
                requestedStream env request ≠ some 103 := by
              simpa [unpairedAudio, known, noPairing, method, plist] using mediated
            exact ⟨fun same => others.1 (same ▸ requested),
              fun same => others.2 (same ▸ requested)⟩
        obtain ⟨new, eq, silent⟩ := quiet
        have isNew : effect ∈ new := by
          dsimp only at started
          rw [eq] at started
          simpa [world] using started
        have silence : effect.startsAudio = false := silent effect isNew
        rw [silence] at audio
        cases audio

/-- In a run without unpaired SETUPs, audio receivers are started only on paired
connections. -/
theorem audio_needs_pairing (env : Platform) (config : RaopConfig) (shared : Shared)
    (events : List Event)
    (mediated : Machine.Always step (fun s event => unpairedAudio s event = false)
      (initial shared : Server env config) events) :
    Machine.Always step AudioPaired (initial shared : Server env config) events :=
  Machine.Always.imp (P := Follows) (fun _ _ event follows => follows_step follows event)
    (fun _ _ _ follows fine => audioPaired_step follows fine) (follows_initial shared) mediated

/-- The binary property list of a SETUP for one stream of a type, with its key. -/
def streamPlist (type : UInt8) : List UInt8 :=
  Utf8.encode "bplist00" ++ [209, 1, 2, 87] ++ Utf8.encode "streams" ++
    [161, 3, 210, 4, 5, 6, 7, 84] ++ Utf8.encode "type" ++ [83] ++ Utf8.encode "shk" ++
    [16, type, 79, 16, 32] ++ List.replicate 32 7 ++
    [8, 11, 19, 21, 26, 31, 35, 37, 0, 0, 0, 0, 0, 0, 1, 1, 0, 0, 0, 0, 0, 0, 0, 8] ++
    List.replicate 15 0 ++ [72]

/-- What the list above says. -/
def keyedStream (type : Nat) : Plist :=
  .dictionary [("streams", .array [.dictionary
    [("type", .integer type), ("shk", .data (List.replicate 32 7))]])]

/-- Lists for the types 96 and 103 can be read. -/
def audioPlatform : Platform where
  __ := simplePlatform
  plistFromBytes := fun data =>
    if data = streamPlist 96 then some (keyedStream 96)
    else if data = streamPlist 103 then some (keyedStream 103)
    else none
  plistToBinary := fun _ => some []

def pinConfig : RaopConfig := { plainConfig with pin := some "1234" }

/-- SETUP for a stream of the second protocol version, with two ports to be had. -/
def streamSetup (id : Nat) (type : UInt8) : Event :=
  .request id
    { method := some "SETUP", url := some "rtsp://10.0.0.2/1", body := some (streamPlist type) }
    { ports := [7000, 7001] }

/-- A fresh connection of a server with a PIN starts an audio receiver without any pairing. -/
theorem unpaired_setup_starts_audio :
    pinConfig.pin.isSome = true ∧
      ((run audioPlatform pinConfig {} [.accept [10, 0, 0, 2] "nonce"]).1.conns[0]?).map
        (fun h => h.conn.ap2SharedSecret) = some none ∧
      (step (run audioPlatform pinConfig {} [.accept [10, 0, 0, 2] "nonce"]).1 (streamSetup 0 103)).2.map
          (fun entry => (entry.id, entry.effects)) =
        [(0, [.audioStarted (.buffered 0 (List.replicate 32 7) none none)])] ∧
      ¬ AudioPaired (run audioPlatform pinConfig {} [.accept [10, 0, 0, 2] "nonce"]).1
        (streamSetup 0 103) := by
  have secret : ((run audioPlatform pinConfig {} [.accept [10, 0, 0, 2] "nonce"]).1.conns[0]?).map
      (fun h => h.conn.ap2SharedSecret) = some none := by decide +kernel
  have effects : (step (run audioPlatform pinConfig {} [.accept [10, 0, 0, 2] "nonce"]).1
      (streamSetup 0 103)).2.map (fun entry => (entry.id, entry.effects)) =
        [(0, [.audioStarted (.buffered 0 (List.replicate 32 7) none none)])] := by decide +kernel
  refine ⟨rfl, secret, effects, ?_⟩
  intro paired
  obtain ⟨entry, mem, is⟩ := List.mem_map.mp (effects ▸ List.mem_singleton_self _)
  obtain ⟨h, known, held⟩ := paired entry mem (.audioStarted (.buffered 0 (List.replicate 32 7)
    none none)) (by rw [(Prod.mk.inj is).2]; simp) rfl
  rw [(Prod.mk.inj is).1] at known
  rw [known] at secret
  simp [Option.some.inj secret] at held

/-- Pair-verify of the controller `c`, then SETUP. -/
def verifiedSetup : List Event :=
  [.accept [10, 0, 0, 2] "nonce",
    .request 0 (pairingRequest "/pair-verify" ([6, 1, 1, 3, 32] ++ List.replicate 32 9)) {},
    .request 0 (pairingRequest "/pair-verify" ([6, 1, 3, 5, 85] ++ [1, 1, 99] ++ [10, 64] ++
      controllerKey ++ controllerKey ++ List.replicate 16 0)) {},
    (streamSetup 0 103)]

/-- After pair-verify the same SETUP starts its receiver on a paired connection. -/
theorem audio_needs_pairing_verified :
    (run audioPlatform pinConfig { pairingStore := [("c", controllerKey)] }
        verifiedSetup).2.map (fun entry => entry.effects.any Effect.startsAudio) =
      [false, false, true] ∧
    Machine.Always step AudioPaired
      (initial { pairingStore := [("c", controllerKey)] } : Server audioPlatform pinConfig)
      verifiedSetup :=
  ⟨by decide +kernel, audio_needs_pairing audioPlatform pinConfig
    { pairingStore := [("c", controllerKey)] } verifiedSetup
    ⟨by decide +kernel, by decide +kernel, by decide +kernel, by decide +kernel, trivial⟩⟩

end Server

end Shairplay.Raop
